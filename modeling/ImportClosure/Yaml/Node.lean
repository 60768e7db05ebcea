import ImportClosure.Yaml.Lexer
/-!
From tokens to a tree of nodes.

A text may hold one document. A reference stands for the node that bears the name, and a name may
be given only once; a reference to a node from within that node is kept as such.
-/

namespace ImportClosure.Yaml

/-- A node, with its tag if it was given one. -/
inductive Node where
  /-- A text; plain ones are read as numbers and the like. -/
  | scalar (tag : Option Text) (value : Text) (isPlain : Bool)
  /-- A list. -/
  | sequence (tag : Option Text) (items : List Node)
  /-- Pairs of keys and values. -/
  | mapping (tag : Option Text) (entries : List (Node × Node))
  /-- A reference to a node around this place, of which only the shape is known. -/
  | enclosing (isSequence : Bool)
deriving Inhabited

/-- What is known about a name. -/
inductive Binding where
  /-- The node is complete. -/
  | done (n : Node)
  /-- The node is being read. -/
  | pending (isSequence : Bool)

/-- The state of reading nodes. -/
structure Reading where
  /-- The tokens to come. -/
  tokens : List Token
  /-- Why there are no more tokens, if this is not for the end of the text. -/
  failure : Option Failure
  /-- The names given so far. -/
  names : List (Text × Binding)
  /-- The meanings of tag handles. -/
  handles : List (Text × Text)

/-- A reader of nodes. -/
abbrev NodeReader := StateT Reading (Except Failure)

namespace NodeReader

/-! ## Tokens -/

/-- Fails. -/
def malformed {α : Type} : NodeReader α := throw .malformed

/-- The next token; where the tokens break off, the failure shows only now. -/
def peek : NodeReader Token := do
  let s ← get
  match s.tokens, s.failure with
  | t :: _, _ => pure t
  | [], some why => throw why
  | [], none => pure .streamEnd

/-- Takes the next token. -/
def drop : NodeReader Unit := modify fun s => { s with tokens := s.tokens.tail }

/-- Takes this token if it comes next. -/
def takes (t : Token) : NodeReader Bool := do
  if (← peek) = t then
    drop
    pure true
  else pure false

/-- One of these tokens comes next. -/
def seesAny (ts : List Token) : NodeReader Bool := do
  pure (ts.contains (← peek))

/-- The results of a reader until it gives none. -/
def untilNone {α : Type} (p : NodeReader (Option α)) : Nat → List α → NodeReader (List α)
  | 0, _ => malformed
  | fuel + 1, done => do
    match ← p with
    | none => pure done.reverse
    | some a => untilNone p fuel (a :: done)

/-- The results of a reader that gives none at the end. -/
def many {α : Type} (p : NodeReader (Option α)) : NodeReader (List α) := do
  untilNone p ((← get).tokens.length + 2) []

/-! ## Properties -/

/-- The tag that a handle and a suffix spell. -/
def tagOf (handle : Option Text) (suffix : Text) : NodeReader Text := do
  match handle with
  | none => pure suffix
  | some h =>
    match (← get).handles.find? (·.1 = h) with
    | some (_, lead) => pure (lead ++ suffix)
    | none => malformed

/-- What stands in front of a node. -/
structure Properties where
  /-- The node's name. -/
  name : Option Text
  /-- Its tag. -/
  tag : Option Text

/-- A name, if one comes next. -/
def anchor? : NodeReader (Option Text) := do
  match ← peek with
  | .anchor name =>
    drop
    pure (some name)
  | _ => pure none

/-- A tag, if one comes next. -/
def tag? : NodeReader (Option Text) := do
  match ← peek with
  | .tag handle suffix =>
    drop
    some <$> tagOf handle suffix
  | _ => pure none

/-- The properties of a node, in either order. -/
def properties : NodeReader Properties := do
  match ← anchor? with
  | some name => pure ⟨some name, ← tag?⟩
  | none =>
    let tag ← tag?
    if tag.isSome then pure ⟨← anchor?, tag⟩ else pure ⟨none, none⟩

/-- The tag of a node; a lone exclamation mark is no tag. -/
def Properties.given (p : Properties) : Option Text :=
  if p.tag = some (Text.ofString "!") then none else p.tag

/-- Gives a node a name, which has to be new. -/
def bindName (p : Properties) (b : Binding) : NodeReader Unit := do
  match p.name with
  | none => pure ()
  | some name =>
    if (← get).names.any (·.1 = name) then malformed
    else modify fun s => { s with names := (name, b) :: s.names }

/-- Replaces what is known about the name of a node. -/
def complete (p : Properties) (n : Node) : NodeReader Node := do
  match p.name with
  | none => pure n
  | some name =>
    modify fun s => { s with names := (name, .done n) :: s.names.filter (·.1 ≠ name) }
    pure n

/-- The node that a name stands for. -/
def named (name : Text) : NodeReader Node := do
  match (← get).names.find? (·.1 = name) with
  | some (_, .done n) => pure n
  | some (_, .pending isSequence) => pure (.enclosing isSequence)
  | none => malformed

/-- A node that is left out. -/
def absent : Node := .scalar none [] true

/-! ## Nodes -/

/-- The kinds of places a node may stand in. -/
inductive Place where
  /-- Within brackets. -/
  | flow
  /-- In a block. -/
  | block
  /-- In a block mapping, where the items of a sequence may stand without indentation. -/
  | blockOrItems
deriving DecidableEq

/-- How the nodes inside a node are read. -/
abbrev Inside := Place → NodeReader Node

/-- A node, or nothing if one of these tokens comes next. -/
def nodeUnless (inside : Inside) (place : Place) (ts : List Token) : NodeReader Node := do
  if ← seesAny ts then pure absent else inside place

/-- The items of a block sequence, to its end. -/
def blockItems (inside : Inside) : NodeReader (List Node) := do
  let items ← many do
    if ← takes .blockEntry then
      some <$> nodeUnless inside .block [.blockEntry, .blockEnd]
    else pure none
  if ← takes .blockEnd then pure items else malformed

/-- The items of a sequence without indentation. -/
def plainItems (inside : Inside) : NodeReader (List Node) :=
  many do
    if ← takes .blockEntry then
      some <$> nodeUnless inside .block [.blockEntry, .key, .value, .blockEnd]
    else pure none

/-- The value after a key, if there is one. -/
def valueUnless (inside : Inside) (place : Place) (ts : List Token) : NodeReader Node := do
  if ← takes .value then nodeUnless inside place ts else pure absent

/-- The entries of a block mapping, to its end. -/
def blockEntries (inside : Inside) : NodeReader (List (Node × Node)) := do
  let ends : List Token := [.key, .value, .blockEnd]
  let entries ← many do
    if ← takes .key then
      let k ← nodeUnless inside .blockOrItems ends
      let v ← valueUnless inside .blockOrItems ends
      pure (some (k, v))
    else pure none
  if ← takes .blockEnd then pure entries else malformed

/-- The items between brackets, with the closing one; the first follows no comma. -/
def flowItems {α : Type} (close : Token) (item : NodeReader α) : Nat → Bool → List α →
    NodeReader (List α)
  | 0, _, _ => malformed
  | fuel + 1, isFirst, done => do
    if ← takes close then pure done.reverse
    else
      if !isFirst then
        if !(← takes .flowEntry) then malformed
      if ← takes close then pure done.reverse
      else flowItems close item fuel false ((← item) :: done)

/-- An item of a sequence in brackets; a key makes it a mapping of one entry. -/
def flowItem (inside : Inside) : NodeReader Node := do
  if ← takes .key then
    let k ← nodeUnless inside .flow [.value, .flowEntry, .flowSequenceEnd]
    let v ← valueUnless inside .flow [.flowEntry, .flowSequenceEnd]
    pure (.mapping none [(k, v)])
  else inside .flow

/-- An entry of a mapping in braces. -/
def flowPair (inside : Inside) : NodeReader (Node × Node) := do
  if ← takes .key then
    let k ← nodeUnless inside .flow [.value, .flowEntry, .flowMappingEnd]
    let v ← valueUnless inside .flow [.flowEntry, .flowMappingEnd]
    pure (k, v)
  else
    let k ← inside .flow
    pure (k, absent)

/-- A collection, known by its name while it is read. -/
def collection {α : Type} (p : Properties) (isSequence : Bool) (inside : NodeReader α)
    (make : α → Node) : NodeReader Node := do
  bindName p (.pending isSequence)
  let a ← inside
  complete p (make a)

/-- A scalar with its name. -/
def scalarNode (p : Properties) (n : Node) : NodeReader Node := do
  bindName p (.done n)
  pure n

/-- The content of a node after its properties. -/
def content (inside : Inside) (place : Place) (p : Properties) : NodeReader Node := do
  let size := (← get).tokens.length + 1
  let inBlock := place ≠ .flow
  match ← peek with
  | .scalar value isPlain =>
    drop
    scalarNode p (.scalar p.given value
      ((isPlain && p.tag.isNone) || (p.tag.isSome && p.given.isNone)))
  | .flowSequence =>
    drop
    collection p true (flowItems .flowSequenceEnd (flowItem inside) size true [])
      (.sequence p.given)
  | .flowMapping =>
    drop
    collection p false (flowItems .flowMappingEnd (flowPair inside) size true [])
      (.mapping p.given)
  | t =>
    if place = .blockOrItems && t = .blockEntry then
      collection p true (plainItems inside) (.sequence p.given)
    else if inBlock && t = .blockSequence then
      drop
      collection p true (blockItems inside) (.sequence p.given)
    else if inBlock && t = .blockMapping then
      drop
      collection p false (blockEntries inside) (.mapping p.given)
    else if p.name.isSome || p.tag.isSome then
      scalarNode p (.scalar p.given [] p.given.isNone)
    else malformed

/-- A node; each node inside it has less fuel. -/
def node : Nat → Inside
  | 0, _ => malformed
  | fuel + 1, place => do
    match ← peek with
    | .alias name =>
      drop
      named name
    | _ => content (node fuel) place (← properties)

/-! ## Documents -/

/-- The meanings that tag handles have by themselves. -/
def standardHandles : List (Text × Text) := [("!", "!"), ("!!", "tag:yaml.org,2002:")]

/-- The directives in front of a document: the version at most once, and each tag handle. -/
def directives : Nat → Bool → List (Text × Text) → NodeReader (List (Text × Text))
  | 0, _, given => pure given
  | fuel + 1, versioned, given => do
    match ← peek with
    | .version major =>
      drop
      if versioned || major ≠ 1 then malformed else directives fuel true given
    | .handle name lead =>
      drop
      if given.any (·.1 = name) then malformed
      else directives fuel versioned ((name, lead) :: given)
    | .otherDirective =>
      drop
      directives fuel versioned given
    | _ => pure given

/-- Takes the marks of the end of a document. -/
def documentEnds : NodeReader Unit := do
  let _ ← many do
    if ← takes .documentEnd then pure (some ()) else pure none

/-- The root of a document that begins with a mark. -/
def markedDocument (size : Nat) : NodeReader Node := do
  let given ← directives size false []
  modify fun s => { s with handles := given ++ standardHandles }
  if ← takes .documentStart then
    let heads ← peek
    match heads with
    | .version _ | .handle _ _ | .otherDirective | .documentStart | .documentEnd
    | .streamEnd => pure absent
    | _ => node size .block
  else malformed

/-- The root of the only document, if there is one. -/
def document : NodeReader (Option Node) := do
  let size := (← get).tokens.length + 1
  let root ← match ← peek with
    | .version _ | .handle _ _ | .otherDirective | .documentStart =>
      some <$> markedDocument size
    | .streamEnd => pure none
    | .documentEnd => do
      -- without directives this begins a document whose content is refused below
      some <$> node size .block
    | _ => some <$> node size .block
  let _ ← takes .documentEnd
  documentEnds
  if (← peek) = .streamEnd then pure root else malformed

end NodeReader

/-- The root of the only document of a text, if there is one. -/
def compose (t : Text) : Except Failure (Option Node) :=
  let (ts, failure) := tokens t
  match NodeReader.document.run ⟨ts, failure, [], NodeReader.standardHandles⟩ with
  | .ok (root, _) => .ok root
  | .error e => .error e

end ImportClosure.Yaml
