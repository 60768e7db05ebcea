import ImportClosure.CommandLine.Arguments
import ImportClosure.Json.Parser
import ImportClosure.ToolServer.Basic
/-!
The command line of the server, and the arguments of its tools as they arrive when it runs.
-/

namespace ImportClosure.ToolServer

/-! ## The command line -/

/-- The name of the server. -/
def name : Text := "check-deps"

/-- What the server is asked to do. -/
structure Request where
  /-- The configuration file. -/
  config : Option Text
  /-- The way in which calls arrive. -/
  transport : Text

/-- The ways in which calls may arrive. -/
def transports : List Text := ["stdio", "streamable-http", "sse"]

/-- The arguments of the server. -/
def program : ProgramSpec where
  name := "check-deps-mcp"
  description := "Check dependency resolution MCP Server"
  options :=
    [CommandLine.configOption,
      ⟨["--transport"], .one, "\x7b" ++ Text.joinWith "," transports ++ "\x7d", transports,
        "Transport type for MCP server. Default: stdio"⟩]
  operand := none
  epilog := []

/-- What the given options ask for. -/
def ofGiven (g : Given) : Request where
  config := (g.argument? "--config").map Path.clean
  transport := (g.argument? "--transport").getD "stdio"

/-! ## Arguments of tools -/

/-- The text that an argument is. -/
def text? : Json → Option Text
  | .text t => some t
  | _ => none

/-- The list of texts that an argument is; none at all counts as an empty list. -/
def texts? : Json → Option (List Text)
  | .null => some []
  | .list items => items.mapM text?
  | _ => none

/-- An argument that is not meant to be a text. A text that spells a list, an object or nothing
stands for what it spells. -/
def respelled : Json → Json
  | .text t =>
    match Json.parse t with
    | some .null => .null
    | some (.list items) => .list items
    | some (.object fields) => .object fields
    | _ => .text t
  | j => j

/-- The reader of arguments that are fields of an object. -/
def readFields : ArgumentReader := fun arguments => do
  let entrypoint ← (arguments.field? "entrypoint").bind text?
  let packages ← texts? (respelled ((arguments.field? "allowed_packages").getD .null))
  pure (entrypoint, packages)

/-- Calls a tool, as calls arrive when the server runs. -/
def call (server : ToolServer) (tool : Text) (arguments : Json) : ToolAnswer :=
  server.callWith readFields tool arguments

end ImportClosure.ToolServer
