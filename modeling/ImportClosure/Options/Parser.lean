import ImportClosure.Options.Basic
/-!
Reading a command line.

Every word is first looked at on its own: it is an option, or an argument. Options may be cut
short as long as they stay unambiguous; several short options without arguments may stand in one
word; an argument may follow its option in the same word. After two hyphens everything is an
argument. A word that begins with a hyphen but is a negative number or holds a blank is an
argument too, unless an option has that name.

Then options take the arguments that follow them, and the operand is the first argument that no
option takes. What is left over, unknown options included, is refused at the end.
-/

namespace ImportClosure

/-- Why a command line is refused. -/
inductive OptionFault where
  /-- The short form stands for several options. -/
  | ambiguous (word : Text) (names : List Text)
  /-- An argument is missing. -/
  | needsArgument (option : OptionSpec)
  /-- An option without arguments is given one in the same word. -/
  | takesNoArgument (option : OptionSpec) (argument : Text)
  /-- The argument is none of the allowed ones. -/
  | notAChoice (option : OptionSpec) (argument : Text)
  /-- The operand is missing. -/
  | needsOperand (name : Text)
  /-- Words are left over. -/
  | unrecognized (words : List Text)
deriving DecidableEq

namespace OptionFault

/-- What is said of an option. -/
def about (o : OptionSpec) (what : Text) : Text := "argument " ++ o.title ++ ": " ++ what

/-- The fault in words. -/
def message : OptionFault → Text
  | ambiguous word names =>
    "ambiguous option: " ++ word ++ " could match " ++ Text.joinWith ", " names
  | needsArgument o =>
    about o (if o.arity = .many then "expected at least one argument"
      else "expected one argument")
  | takesNoArgument o argument => about o ("ignored explicit argument " ++ argument.quoted)
  | notAChoice o argument =>
    about o ("invalid choice: " ++ argument.quoted ++ " (choose from "
      ++ Text.joinWith ", " (o.choices.map Text.quoted) ++ ")")
  | needsOperand name => "the following arguments are required: " ++ name
  | unrecognized words => "unrecognized arguments: " ++ Text.joinWith " " words

end OptionFault

/-- What a command line leads to, if it is not refused. -/
inductive Reading where
  /-- The help is shown. -/
  | help
  /-- The program runs. -/
  | run (given : Given)

namespace ProgramSpec

/-! ## Words -/

/-- What a word is by itself. -/
inductive Word where
  /-- An argument. -/
  | argument
  /-- Two hyphens, after which all words are arguments. -/
  | separator
  /-- An option under one of its names, and the argument in the same word. -/
  | option (o : OptionSpec) (name : Text) (argument : Option Text)
  /-- An option that there is not. -/
  | unknown

/-- The parts of a word before and after its first equals sign. -/
def atEquals? (word : Text) : Option (Text × Text) :=
  match word.span (· ≠ CodePoint.ofChar '=') with
  | (_, []) => none
  | (name, _ :: argument) => some (name, argument)

/-- A negative number. -/
def isNegativeNumber (word : Text) : Bool :=
  match word with
  | m :: ds =>
    let (whole, rest) := ds.span CodePoint.isDigit
    m = '-' && match rest with
      | [] => !whole.isEmpty
      | p :: fraction => p = '.' && !fraction.isEmpty && fraction.all CodePoint.isDigit
  | [] => false

/-- The options that a word may be short for, or the beginning of. -/
def candidates (p : ProgramSpec) (word : Text) : List (Text × OptionSpec × Option Text) :=
  match word with
  | _ :: second :: rest =>
    if second = '-' then
      let (lead, argument) := match atEquals? word with
        | some (lead, argument) => (lead, some argument)
        | none => (word, none)
      (p.names.filter (fun n => lead.isPrefixOf n.1)).map fun n => (n.1, n.2, argument)
    else
      p.names.filterMap fun n =>
        if n.1 = word.take 2 then some (n.1, n.2, some rest)
        else if word.isPrefixOf n.1 then some (n.1, n.2, none)
        else none
  | _ => []

/-- What a word is by itself, two hyphens apart. -/
def classify (p : ProgramSpec) (word : Text) : Except OptionFault Word :=
  if word.head? ≠ some (CodePoint.ofChar '-') then .ok .argument
  else match p.find? word with
    | some o => .ok (.option o word none)
    | none =>
      if word.length = 1 then .ok .argument
      else match (atEquals? word).bind fun (name, argument) =>
          (p.find? name).map fun o => Word.option o name (some argument) with
        | some w => .ok w
        | none =>
          match p.candidates word with
          | [] =>
            .ok (if isNegativeNumber word || word.contains ' ' then .argument else .unknown)
          | [(name, o, argument)] => .ok (.option o name argument)
          | several => .error (.ambiguous word (several.map Prod.fst))

/-- What each word is. -/
def classifyAll (p : ProgramSpec) : List Text → Except OptionFault (List (Text × Word))
  | [] => .ok []
  | word :: words =>
    if word = Text.ofString "--" then
      .ok ((word, .separator) :: words.map fun w => (w, .argument))
    else do
      let w ← p.classify word
      pure ((word, w) :: (← p.classifyAll words))

/-! ## Options with their arguments -/

/-- A word that is an argument. -/
def isArgument : Text × Word → Bool
  | (_, .argument) => true
  | _ => false

/-- A word that is an option, there or not. -/
def isOption : Text × Word → Bool
  | (_, .option _ _ _) => true
  | (_, .unknown) => true
  | _ => false

/-- The options in one word: short ones without arguments, and the last one with what is left of
the word. -/
def cluster (p : ProgramSpec) (o : OptionSpec) (name : Text) :
    Nat → Option Text → Except OptionFault (List OptionSpec × OptionSpec × Option Text)
  | 0, argument => .ok ([], o, argument)
  | fuel + 1, argument =>
    match argument with
    | none => .ok ([], o, none)
    | some t =>
      if o.arity ≠ .zero then .ok ([], o, some t)
      else match t with
        | [] => .error (.takesNoArgument o t)
        | c :: cs =>
          if name.getD 1 0 = '-' then .error (.takesNoArgument o t)
          else
            let next : Text := ['-', c]
            match p.find? next with
            | none => .error (.takesNoArgument o t)
            | some o' => do
              let (before, last, left) ←
                p.cluster o' next fuel (if cs = [] then none else some cs)
              pure (o :: before, last, left)

/-- The arguments that an option takes of those that follow it. -/
def taken (o : OptionSpec) (following : List Text) : Except OptionFault (List Text) :=
  match o.arity, following with
  | .zero, _ => .ok []
  | _, [] => .error (.needsArgument o)
  | .one, t :: _ => .ok [t]
  | .many, ts => .ok ts

/-- The options that a word and the arguments after it make. -/
def expand (p : ProgramSpec) (o : OptionSpec) (name : Text) (argument : Option Text)
    (following : List Text) : Except OptionFault (List (OptionSpec × List Text) × Nat) := do
  let (before, last, left) ← p.cluster o name ((argument.getD []).length + 1) argument
  let flags := before.map fun o => (o, [])
  match left with
  | some t => pure (flags ++ [(last, [t])], 0)
  | none =>
    let arguments ← taken last following
    pure (flags ++ [(last, arguments)], arguments.length)

/-! ## Command lines -/

/-- What was read so far: what was given, and the words that nothing takes. -/
structure Progress where
  /-- What was given. -/
  given : Given
  /-- The words that nothing takes. -/
  left : List Text

/-- Notes options with their arguments; help ends the reading. -/
def accept (s : Progress) : List (OptionSpec × List Text) → Except OptionFault (Option Progress)
  | [] => .ok (some s)
  | (o, arguments) :: rest =>
    if o = OptionSpec.help? then .ok none
    else match arguments.find? (fun t => !o.choices.isEmpty && !o.choices.contains t) with
      | some t => .error (.notAChoice o t)
      | none =>
        accept { s with given := { s.given with options := s.given.options ++ [(o, arguments)] } }
          rest

/-- The words after the last option: the first argument among them is the operand, if there is
none yet, and what stands before or directly after it as a separator goes with it. -/
def finish (p : ProgramSpec) (s : Progress) (words : List (Text × Word)) :
    Except OptionFault Reading :=
  let isSeparator (w : Text × Word) : Bool := !isArgument w && !isOption w
  let (operand, rest) := match s.given.operand, p.operand with
    | none, some _ =>
      match words.dropWhile isSeparator with
      | w :: ws => (some w.1, ws.dropWhile isSeparator)
      | [] => (none, words)
    | operand, _ => (operand, words)
  let left := s.left ++ rest.map Prod.fst
  match operand, p.operand with
  | none, some (name, _) => .error (.needsOperand name)
  | _, _ =>
    if left = [] then .ok (.run { s.given with operand := operand })
    else .error (.unrecognized left)

/-- Reads words up to the last option. -/
def readFrom (p : ProgramSpec) : Nat → Progress → List (Text × Word) → Except OptionFault Reading
  | 0, s, words => p.finish s words
  | fuel + 1, s, words =>
    if !words.any isOption then p.finish s words
    else match words with
      | [] => p.finish s words
      | (_, .option o name argument) :: rest => do
        let following := (rest.takeWhile isArgument).map Prod.fst
        let (options, count) ← p.expand o name argument following
        match ← accept s options with
        | none => pure .help
        | some s => p.readFrom fuel s (rest.drop count)
      | (word, .unknown) :: rest => p.readFrom fuel { s with left := s.left ++ [word] } rest
      | (word, _) :: rest =>
        if s.given.operand.isNone && p.operand.isSome then
          p.readFrom fuel { s with given := { s.given with operand := some word } } rest
        else p.readFrom fuel { s with left := s.left ++ [word] } rest

/-- Reads a command line. -/
def read (p : ProgramSpec) (words : List Text) : Except OptionFault Reading := do
  p.readFrom words.length ⟨⟨[], none⟩, []⟩ (← p.classifyAll words)

end ProgramSpec

end ImportClosure
