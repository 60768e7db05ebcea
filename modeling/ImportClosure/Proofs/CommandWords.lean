import ImportClosure.CommandLine.Arguments
import ImportClosure.Options.Parser
import Mathlib.Data.List.TakeWhile
/-!
Command lines that are read as they are meant.

A command line is spelled by an operand and by options, each of them under a name of its own and
with its arguments behind it. Where every argument is a word that no option could be, such a command
line is read back as it was spelled: the operand is taken first, then the options one after the
other, each with the arguments up to the next option (`readFrom_uses`). For the program this gives
an entrypoint, a configuration file and further packages (`read_commandLine`).
-/

namespace ImportClosure

namespace ProgramSpec

variable {p : ProgramSpec} {word : Text} {ws rest : List Text} {fuel : Nat}
variable {cs : List (Text × Word)} {operand : Text}
variable {options : List (OptionSpec × List Text)}

/-! ## Words -/

/-- A word that is an argument, as long as it does not stand for one after two hyphens. -/
def IsArgument (p : ProgramSpec) (word : Text) : Prop :=
  word ≠ Text.ofString "--" ∧ p.classify word = .ok .argument

/-- Words that do not begin with a hyphen are arguments. -/
theorem isArgument_of_head? (h : word.head? ≠ some (CodePoint.ofChar '-')) :
    p.IsArgument word := by
  constructor
  · rintro rfl
    exact h rfl
  · unfold classify
    rw [if_pos h]

/-- A word as it is looked at, if it is an argument. -/
def asArgument (word : Text) : Text × Word := (word, .argument)

theorem classifyAll_cons {w : Word} (hword : word ≠ Text.ofString "--")
    (h : p.classify word = .ok w) (hrest : p.classifyAll rest = .ok cs) :
    p.classifyAll (word :: rest) = .ok ((word, w) :: cs) := by
  unfold classifyAll
  rw [if_neg hword, h, hrest]
  rfl

theorem classifyAll_arguments (h : ∀ w ∈ ws, p.IsArgument w)
    (hrest : p.classifyAll rest = .ok cs) :
    p.classifyAll (ws ++ rest) = .ok (ws.map asArgument ++ cs) := by
  induction ws with
  | nil => exact hrest
  | cons word ws ih =>
    obtain ⟨hword, hws⟩ := List.forall_mem_cons.1 h
    exact classifyAll_cons hword.1 hword.2 (ih hws)

/-! ## Options -/

/-- An option as it is given: its name and its arguments. -/
structure Use where
  /-- The option. -/
  option : OptionSpec
  /-- The name under which it is given. -/
  name : Text
  /-- The arguments. -/
  arguments : List Text

namespace Use

/-- The words that give the option. -/
def words (u : Use) : List Text := u.name :: u.arguments

/-- These words, as they are looked at. -/
def classified (u : Use) : List (Text × Word) :=
  (u.name, .option u.option u.name none) :: u.arguments.map asArgument

/-- The option with its arguments, as it is noted. -/
def given (u : Use) : OptionSpec × List Text := (u.option, u.arguments)

/-- The name stands for the option, which takes all of these arguments. -/
structure IsRead (p : ProgramSpec) (u : Use) : Prop where
  name : p.classify u.name = .ok (.option u.option u.name none)
  name_ne : u.name ≠ Text.ofString "--"
  arguments : ∀ w ∈ u.arguments, p.IsArgument w
  taken : taken u.option u.arguments = .ok u.arguments
  not_help : u.option ≠ OptionSpec.help?
  any_argument : u.option.choices = []

variable {u : Use} {uses : List Use}

theorem classifyAll_uses (h : ∀ u ∈ uses, u.IsRead p) :
    p.classifyAll (uses.flatMap words) = .ok (uses.flatMap classified) := by
  induction uses with
  | nil => rfl
  | cons u uses ih =>
    obtain ⟨hu, huses⟩ := List.forall_mem_cons.1 h
    rw [List.flatMap_cons, List.flatMap_cons]
    exact classifyAll_cons hu.name_ne hu.name (classifyAll_arguments hu.arguments (ih huses))

/-- The arguments of an option end where the next option begins. -/
theorem takeWhile_isArgument (ws : List Text) (uses : List Use) :
    (ws.map asArgument ++ uses.flatMap classified).takeWhile isArgument = ws.map asArgument := by
  have hall : ∀ w ∈ ws.map asArgument, isArgument w = true := by
    intro w hw
    obtain ⟨word, -, rfl⟩ := List.mem_map.1 hw
    rfl
  rw [List.takeWhile_append_of_pos hall]
  cases uses with
  | nil => exact List.append_nil _
  | cons u uses =>
    have hstop : ((u :: uses).flatMap classified).takeWhile isArgument = [] :=
      List.takeWhile_cons_of_neg Bool.false_ne_true
    rw [hstop, List.append_nil]

theorem IsRead.expand (h : u.IsRead p) :
    p.expand u.option u.name none u.arguments = .ok ([u.given], u.arguments.length) := by
  have hcluster : p.cluster u.option u.name 1 none = .ok ([], u.option, none) := rfl
  unfold ProgramSpec.expand
  dsimp only [Option.getD, List.length, bind, Except.bind]
  rw [hcluster]
  dsimp only
  rw [h.taken]
  rfl

theorem IsRead.accept (h : u.IsRead p) :
    accept ⟨⟨options, some operand⟩, []⟩ [u.given]
      = .ok (some ⟨⟨options ++ [u.given], some operand⟩, []⟩) := by
  have hchoices : u.given.2.find?
      (fun t => !u.option.choices.isEmpty && !u.option.choices.contains t) = none := by
    rw [h.any_argument]
    exact List.find?_eq_none.2 fun _ _ => Bool.false_ne_true
  unfold given at hchoices ⊢
  unfold ProgramSpec.accept
  rw [if_neg h.not_help, hchoices]
  rfl

theorem readFrom_use (h : u.IsRead p) :
    p.readFrom (fuel + 1) ⟨⟨options, some operand⟩, []⟩ ((u :: uses).flatMap classified)
      = p.readFrom fuel ⟨⟨options ++ [u.given], some operand⟩, []⟩ (uses.flatMap classified) := by
  have hfollowing : ((u.arguments.map asArgument ++ uses.flatMap classified).takeWhile
      isArgument).map Prod.fst = u.arguments := by
    rw [takeWhile_isArgument, List.map_map]
    exact List.map_id _
  have hdrop : (u.arguments.map asArgument ++ uses.flatMap classified).drop u.arguments.length
      = uses.flatMap classified := List.drop_left' (List.length_map _)
  have hwords : (u :: uses).flatMap classified
      = (u.name, .option u.option u.name none)
        :: (u.arguments.map asArgument ++ uses.flatMap classified) := rfl
  rw [hwords]
  -- the option stands first, and what follows it up to the next option is what it takes
  conv => lhs; unfold readFrom
  rw [if_neg (by simp [isOption])]
  dsimp only
  rw [hfollowing, h.expand]
  dsimp only [bind, Except.bind]
  rw [h.accept]
  dsimp only
  rw [hdrop]

theorem readFrom_nil :
    p.readFrom fuel ⟨⟨options, some operand⟩, []⟩ [] = .ok (.run ⟨options, some operand⟩) := by
  have hfinish : p.finish ⟨⟨options, some operand⟩, []⟩ []
      = .ok (.run ⟨options, some operand⟩) := by
    unfold finish
    cases p.operand <;> rfl
  cases fuel with
  | zero => exact hfinish
  | succ fuel => exact hfinish

/-- **Options.** After the operand, options are read as they are given. -/
theorem readFrom_uses (h : ∀ u ∈ uses, u.IsRead p) (hfuel : uses.length ≤ fuel) :
    p.readFrom fuel ⟨⟨options, some operand⟩, []⟩ (uses.flatMap classified)
      = .ok (.run ⟨options ++ uses.map given, some operand⟩) := by
  induction uses generalizing fuel options with
  | nil =>
    rw [List.map_nil, List.append_nil]
    exact readFrom_nil
  | cons u uses ih =>
    obtain ⟨hu, huses⟩ := List.forall_mem_cons.1 h
    rw [List.length_cons] at hfuel
    obtain ⟨fuel, rfl⟩ := Nat.exists_eq_add_of_le' (show 1 ≤ fuel by omega)
    rw [readFrom_use hu, ih huses (by omega), List.map_cons, List.append_assoc]
    rfl

end Use

theorem Use.length_le (uses : List Use) : uses.length ≤ (uses.flatMap words).length := by
  induction uses with
  | nil => exact Nat.le_refl 0
  | cons u uses ih =>
    have hwords : (u :: uses).flatMap words = u.name :: (u.arguments ++ uses.flatMap words) := rfl
    rw [hwords]
    simp only [List.length_cons, List.length_append]
    omega

theorem readFrom_operand (hp : p.operand.isSome) :
    p.readFrom (fuel + 1) ⟨⟨[], none⟩, []⟩ [asArgument operand]
      = .ok (.run ⟨[], some operand⟩) := by
  obtain ⟨⟨name, help⟩, hname⟩ := Option.isSome_iff_exists.1 hp
  unfold readFrom
  rw [if_pos (by rfl)]
  unfold finish
  rw [hname]
  rfl

theorem readFrom_operand_uses {u : Use} {uses : List Use} (hp : p.operand.isSome) :
    p.readFrom (fuel + 1) ⟨⟨[], none⟩, []⟩
        (asArgument operand :: (u :: uses).flatMap Use.classified)
      = p.readFrom fuel ⟨⟨[], some operand⟩, []⟩ ((u :: uses).flatMap Use.classified) := by
  have hoption : (asArgument operand :: (u :: uses).flatMap Use.classified).any isOption = true :=
    rfl
  conv => lhs; unfold readFrom
  rw [hoption]
  unfold asArgument
  dsimp only
  rw [hp]
  rfl

/-- **Command lines.** An operand and then options are read as they are given. -/
theorem read_uses {uses : List Use} (hp : p.operand.isSome) (hoperand : p.IsArgument operand)
    (h : ∀ u ∈ uses, u.IsRead p) :
    p.read (operand :: uses.flatMap Use.words)
      = .ok (.run ⟨uses.map Use.given, some operand⟩) := by
  have hclassified := classifyAll_cons hoperand.1 hoperand.2 (Use.classifyAll_uses h)
  have hread : p.read (operand :: uses.flatMap Use.words)
      = p.readFrom ((uses.flatMap Use.words).length + 1) ⟨⟨[], none⟩, []⟩
        (asArgument operand :: uses.flatMap Use.classified) := by
    unfold read
    rw [hclassified]
    rfl
  rw [hread]
  -- without options the operand is only taken when no option is left to be read
  cases uses with
  | nil => exact readFrom_operand hp
  | cons u uses =>
    rw [readFrom_operand_uses hp, Use.readFrom_uses h (Use.length_le _)]
    rfl

end ProgramSpec

/-! ## The program -/

namespace CommandLine

open ProgramSpec (Use IsArgument)

variable {entrypoint : Text} {path : Option Text} {packages : List Text}

/-- The option for further packages. -/
def allowOption : OptionSpec where
  names := ["--allow"]
  arity := .many
  argumentName := "NAME"
  choices := []
  help := "Additional package names available in the runtime"

/-- The options that name a configuration file and further packages. -/
def uses (path : Option Text) (packages : List Text) : List Use :=
  (path.map fun p => Use.mk configOption "--config" [p]).toList
    ++ if packages = [] then [] else [⟨allowOption, "--allow", packages⟩]

/-- The command line for an entrypoint with a configuration file and further packages. -/
def line (entrypoint : Text) (path : Option Text) (packages : List Text) : List Text :=
  entrypoint :: (uses path packages).flatMap Use.words

theorem isRead_config {p : Text} (h : program.IsArgument p) :
    (Use.mk configOption "--config" [p]).IsRead program where
  name := rfl
  name_ne := show Text.ofString "--config" ≠ Text.ofString "--" by decide
  arguments := List.forall_mem_singleton.2 h
  taken := rfl
  not_help := show configOption ≠ OptionSpec.help? by decide
  any_argument := rfl

theorem isRead_allow (hne : packages ≠ []) (h : ∀ w ∈ packages, program.IsArgument w) :
    (Use.mk allowOption "--allow" packages).IsRead program where
  name := rfl
  name_ne := show Text.ofString "--allow" ≠ Text.ofString "--" by decide
  arguments := h
  taken := by
    cases packages with
    | nil => exact absurd rfl hne
    | cons w ws => rfl
  not_help := show allowOption ≠ OptionSpec.help? by decide
  any_argument := rfl

/-- **The command line of the program.** If no word could be an option, it is read as it is meant,
and asks for nothing else. -/
theorem read_line (hentry : program.IsArgument entrypoint)
    (hpath : ∀ p ∈ path, program.IsArgument p) (hpackages : ∀ w ∈ packages, program.IsArgument w) :
    ∃ given, program.read (line entrypoint path packages) = .ok (.run given)
      ∧ ofGiven given
        = ⟨entrypoint, packages, path.map Path.clean, .json, none, none, false⟩ := by
  have huses : ∀ u ∈ uses path packages, u.IsRead program := by
    intro u hu
    rcases List.mem_append.1 hu with hconfig | hallow
    · obtain ⟨p, hp, rfl⟩ := Option.map_eq_some_iff.1 (Option.mem_toList.1 hconfig)
      exact isRead_config (hpath p hp)
    · split_ifs at hallow with hnone
      · exact absurd hallow List.not_mem_nil
      · rw [List.mem_singleton.1 hallow]
        exact isRead_allow hnone hpackages
  refine ⟨_, ProgramSpec.read_uses rfl hentry huses, ?_⟩
  cases path <;> cases packages <;> rfl

end CommandLine

end ImportClosure
