import ImportClosure.Configuration.Loader
import ImportClosure.Yaml.Node
import ImportClosure.Yaml.Number
/-!
From a tree of nodes to a value.

Values are made pass by pass: where a collection is met it is empty at first, and it is filled in
the next pass. So of several failures the one of the earliest pass is told, and within a pass the
first one (`Making`).

A mapping may take over entries of other mappings through the key `<<`: they stand in front of
its own, so its own entries replace them. A key given twice keeps its first place and its last
value. What a node comes to depends on where it stands, and all of it is settled by what the nodes
inside it come to (`Meaning`).
-/

namespace ImportClosure.Yaml

/-! ## Passes -/

/-- Why something cannot be made. -/
structure Setback where
  /-- How many passes later this shows. -/
  pass : Nat
  /-- What is wrong. -/
  why : Failure

/-- Something that is made in one or more passes. -/
abbrev Making (α : Type) := Except Setback α

namespace Making

variable {α β : Type}

/-- Fails at once. -/
def fails (why : Failure) : Making α := .error ⟨0, why⟩

/-- Is made at once. -/
def now (r : Except Failure α) : Making α := r.mapError (Setback.mk 0)

/-- Is made one pass later. -/
def later (m : Making α) : Making α := m.mapError fun e => ⟨e.pass + 1, e.why⟩

/-- One thing in front of another one, in every pass. -/
def both (a : Making α) (b : Making β) : Making (α × β) :=
  match a, b with
  | .ok a, .ok b => .ok (a, b)
  | .ok _, .error e => .error e
  | .error e, .ok _ => .error e
  | .error e, .error e' => .error (if e'.pass < e.pass then e' else e)

/-- One thing after the other, in every pass. -/
def all : List (Making α) → Making (List α)
  | [] => .ok []
  | m :: ms => (both m (all ms)).map fun p => p.1 :: p.2

end Making

/-! ## Scalars -/

/-- The tag of a node; one that was given none has that of its shape. -/
def Node.kind : Node → Text
  | scalar (some tag) _ _ => tag
  | scalar none value isPlain => if isPlain then Scalar.plainTag value else standardTag "str"
  | sequence tag _ => tag.getD (standardTag "seq")
  | mapping tag _ => tag.getD (standardTag "map")
  | enclosing isSequence => if isSequence then standardTag "seq" else standardTag "map"

/-- The value of a text by its tag. -/
def ofScalar (tag t : Text) : Except Failure Value :=
  if tag = standardTag "str" then .ok (.text t)
  else if tag = standardTag "null" then .ok .null
  else if tag = standardTag "bool" then Value.bool <$> Scalar.readTruth t
  else if tag = standardTag "int" then Value.int <$> Scalar.readWhole t
  else if tag = standardTag "float" then Value.float <$> Scalar.readPointed t
  else if tag = standardTag "binary" then Value.bytes <$> Scalar.readBytes t
  else if tag = standardTag "timestamp" then Scalar.readTimestamp t
  else .error .malformed

/-- The value of a mapping that stands for a text, by its tag. A moment is looked for in the mapping
itself, which is no text. -/
def ofStandIn (tag t : Text) : Except Failure Value :=
  if tag = standardTag "timestamp" then
    .error (.unmakeable "TypeError" "expected string or bytes-like object, got 'list'")
  else ofScalar tag t

/-! ## Collections -/

/-- The entries of a mapping while its keys and values are made. -/
abbrev Content := List (Making Value × Making Value)

/-- What a node comes to, in the places where it may stand. -/
structure Meaning where
  /-- Its tag. -/
  kind : Text
  /-- Its value. -/
  value : Making Value
  /-- Its value as a key; the equals sign on its own is a text there. -/
  key : Making Value
  /-- The text that it is or stands for. -/
  text? : Option Text
  /-- Its key and its value, for a mapping of one entry. -/
  row? : Option (Making Value × Making Value)
  /-- Its entries, for a mapping. -/
  entries : Except Failure Content
  /-- The entries that are taken over from it. -/
  merged : Except Failure Content

namespace Meaning

/-- The entries taken over from the mappings in a sequence; the first one counts most, so its
entries come last. -/
def mergedItems : List Meaning → Except Failure Content
  | [] => .ok []
  | m :: ms => do
    let first ← m.entries
    pure ((← mergedItems ms) ++ first)

/-- The entries taken over from elsewhere, and the others. -/
def split : List (Meaning × Meaning) → Except Failure (Content × Content)
  | [] => .ok ([], [])
  | (k, v) :: es => do
    if k.kind = standardTag "merge" then
      let more ← v.merged
      let (taken, own) ← split es
      pure (more ++ taken, own)
    else
      let (taken, own) ← split es
      pure (taken, (k.key, v.value) :: own)

/-- The entries of a mapping, those taken over first. -/
def content (own : List (Meaning × Meaning)) : Except Failure Content := do
  let (taken, own) ← split own
  pure (taken ++ own)

/-- A key that may be one. What fails in a later pass is a collection, which may not. -/
def checkedKey : Making Value → Making Value
  | .ok v => if v.isKey then .ok v else Making.fails .malformed
  | .error e => if e.pass = 0 then .error e else Making.fails .malformed

/-- The entries of a mapping, their keys and values made. -/
def fill (entries : Content) : Making (List (Value × Value)) :=
  (Making.all (entries.map fun e => Making.both (checkedKey e.1) e.2)).map
    fun made => made.foldl (fun done e => Value.insertEntry e.1 e.2 done) []

/-- The text of the first entry whose key is an equals sign: a mapping with one may stand for a
scalar. -/
def textOf? : List (Meaning × Meaning) → Option Text
  | [] => none
  | (k, v) :: es => if k.kind = standardTag "value" then v.text? else textOf? es

/-- The row that a mapping of one entry is. -/
def row (m : Meaning) : Making Value :=
  match m.row? with
  | some (k, v) => (Making.both k v).map fun p => .row [p.1, p.2]
  | none => Making.fails .malformed

/-- The value of a sequence by its tag. -/
def ofItems (tag : Text) (items : List Meaning) : Making Value :=
  if tag = standardTag "seq" then
    Making.later ((Making.all (items.map Meaning.value)).map .list)
  else if tag = standardTag "omap" ∨ tag = standardTag "pairs" then
    Making.later ((Making.all (items.map row)).map .list)
  else if tag = standardTag "map" ∨ tag = standardTag "set" then
    Making.later (Making.fails .malformed)
  else Making.fails .malformed

/-- The value of a mapping by its tag. -/
def ofEntries (tag : Text) (own : List (Meaning × Meaning)) : Making Value :=
  let made := Making.now (content own) >>= fill
  if tag = standardTag "map" then Making.later (made.map .mapping)
  else if tag = standardTag "set" then
    Making.later (made.map fun entries => .set (entries.map Prod.fst))
  else if tag = standardTag "seq" ∨ tag = standardTag "omap" ∨ tag = standardTag "pairs" then
    Making.later (Making.fails .malformed)
  else
    match textOf? own with
    | some t => Making.now (ofStandIn tag t)
    | none => Making.fails .malformed

end Meaning

namespace Node

mutual

/-- What a node comes to. -/
def meaning : Node → Meaning
  | scalar tag t isPlain =>
    let kind := (scalar tag t isPlain).kind
    let value := Making.now (ofScalar kind t)
    { kind, value
      key := if kind = standardTag "value" then .ok (.text t) else value
      text? := some t
      row? := none
      entries := .error .malformed
      merged := .error .malformed }
  | sequence tag items =>
    let kind := tag.getD (standardTag "seq")
    let items := meanings items
    let value := Meaning.ofItems kind items
    { kind, value
      key := value
      text? := none
      row? := none
      entries := .error .malformed
      merged := Meaning.mergedItems items }
  | mapping tag entries =>
    let kind := tag.getD (standardTag "map")
    let own := entryMeanings entries
    let value := Meaning.ofEntries kind own
    let content := Meaning.content own
    { kind, value
      key := value
      text? := Meaning.textOf? own
      row? := match own with
        | [(k, v)] => some (k.value, v.value)
        | _ => none
      entries := content
      merged := content }
  | enclosing isSequence =>
    { kind := (enclosing isSequence).kind
      value := .ok (.again isSequence)
      key := .ok (.again isSequence)
      text? := none
      row? := none
      entries := .ok []
      merged := .ok [] }

/-- What nodes come to. -/
def meanings : List Node → List Meaning
  | [] => []
  | n :: ns => meaning n :: meanings ns

/-- What the keys and the values of entries come to. -/
def entryMeanings : List (Node × Node) → List (Meaning × Meaning)
  | [] => []
  | (k, v) :: es => (meaning k, meaning v) :: entryMeanings es

end

end Node

/-! ## Texts -/

/-- The value of the only document of a text; a text without one is nothing. -/
def read (t : Text) : Except Failure Value := do
  match ← compose t with
  | none => pure .null
  | some root => root.meaning.value.mapError Setback.why

/-- What a failure is to those who only want a value. -/
def Failure.toLoadFailure : Failure → LoadFailure
  | malformed => .refused "the text is not well-formed"
  | unmakeable kind message => .unmakeable kind message

/-- The value that a text spells in YAML. -/
def load (t : Text) : Except LoadFailure Value := (read t).mapError Failure.toLoadFailure

/-- The loader of files in YAML. All of a file is made a text before any of it is loaded. -/
def loader : Loader where
  load _ t := load t
  early? _ _ := none

end ImportClosure.Yaml
