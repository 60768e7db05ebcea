import ImportClosure.Proofs.DiskWrites
import ImportClosure.Proofs.FrontEnds
import ImportClosure.Proofs.PrintedText
/-!
Where the program writes.

The output and the error output of a run are read by other programs, so nothing may be mixed into
them. A run whose arguments ask for no log keeps to this (`IsDisciplined`): a refusal is the error
on the error output and nothing else; files go to the output and nothing else, or to the file that
is named, and then either that file holds them and nothing more is said, or it cannot be written and
one line says so. It holds whatever is reported while the configuration and the sources are read,
with one exception (`run_disciplined`): where the path for the output holds U+0000 no file can be
written either, but the run does not say so, it breaks off (`runWith_nullInPath`).
-/

namespace ImportClosure

/-- The message of a fault is one line. -/
theorem DiskFault.lineFeed_not_mem_message (fault : DiskFault) (path : Text) :
    CodePoint.ofChar '\n' ∉ fault.message path := by
  have hwords : CodePoint.ofChar '\n' ∉ Text.ofString "[Errno " ++ Text.ofNat fault.reason.1 ++ "] "
      ++ Text.ofString fault.reason.2 ++ ": " := by
    cases fault <;> decide
  unfold message
  rw [List.mem_append, not_or]
  exact ⟨hwords, path.lineFeed_not_mem_quoted⟩

namespace CommandLine

open ImportClosure.Registry (parserExtractors)

variable {loader : Loader} {parsers : Parsers} {a : Arguments} {d : Disk} {c : Config}
variable {log : List LogRecord}
variable {words : List Text} {given : Given} {run : Outcome} {text path : Text}
variable {library : Except Failure (OrderedMap Text Text)} {files : OrderedMap Text Text}
variable {e : ResolutionError}

/-! ## The discipline -/

/-- What a run leaves: the disk and the error output, the output, and how it ends. -/
def Outcome.left (run : Outcome) : Surroundings × Text × Ending :=
  (run.surroundings, run.output, run.ending)

/-- How a text is delivered, to the output or to the file that is named. -/
inductive Delivers (d : Disk) (text : Text) : Surroundings × Text × Ending → Option Text → Prop
  /-- It is the output, and nothing else is written. -/
  | printed : Delivers d text (⟨d, []⟩, text ++ "\n", .ran 0) none
  /-- It is in the file, the only place of the disk that changes, and nothing else is written. -/
  | saved {path : Text} {bytes : Bytes} {place : List Text} (hplace : d.locate path = .ok place)
      (hbytes : Utf8.encode (text ++ "\n") = .ok bytes)
      (hfind : (d.put place (.file bytes)).find path = .ok (.file bytes)) :
      Delivers d text (⟨d.put place (.file bytes), []⟩, [], .ran 0) (some path)
  /-- The file cannot be written, since the path leads nowhere or to a directory, and one line says
  so. -/
  | notSaved {path line : Text} (hline : CodePoint.ofChar '\n' ∉ line)
      (hplace : ∀ place, d.locate path = .ok place → d.entries.get? place = some .directory) :
      Delivers d text (⟨d, "Error writing output: " ++ line ++ "\n"⟩, [], .ran 1) (some path)

/-- A run keeps what it writes apart, if this is what the library comes to. -/
structure IsDisciplined (a : Arguments) (d : Disk)
    (library : Except Failure (OrderedMap Text Text)) (run : Outcome) : Prop where
  /-- An error is all that is written. -/
  refused : ∀ e, library = .error (.reported e) →
    run.left = (⟨d, renderError a.format e ++ "\n"⟩, [], .ran 1)
  /-- Files are delivered. -/
  delivered : ∀ files, library = .ok files →
    Delivers d (render a.format a.entrypoint files) run.left a.output

/-- The path for the output holds U+0000. -/
def NullInPath (a : Arguments) : Prop := ∃ path ∈ a.output, CodePoint.ofNat 0 ∈ path

/-! ## What is shown -/

/-- The paths are shown in ascending order, each once. -/
theorem render_paths (entrypoint : Text) (files : OrderedMap Text Text) :
    ∃ names, render .paths entrypoint files = Text.joinWith "\n" names ∧ Text.Ascending names
      ∧ names.Perm files.keys := by
  refine ⟨(TextSet.ofList files.keys).toList, rfl, (TextSet.ofList files.keys).ascending, ?_⟩
  have hnodup := (TextSet.ofList files.keys).ascending.nodup
  exact (List.perm_ext_iff_of_nodup hnodup files.nodup_keys).2 fun _ => TextSet.mem_ofList

/-- What is shown of a result has bytes. -/
theorem isEncodable_render (format : OutputFormat) {entrypoint : Text}
    (hentry : entrypoint.IsEncodable)
    (hfiles : ∀ f ∈ files.entries, f.1.IsEncodable ∧ f.2.IsEncodable) :
    (render format entrypoint files).IsEncodable := by
  cases format with
  | json =>
    exact (Json.isAscii_print (FrontEnds.isPlain_written hentry hfiles) (some 2)).isEncodable
  | paths =>
    obtain ⟨names, htext, -, hperm⟩ := render_paths entrypoint files
    rw [htext]
    refine Text.isEncodable_joinWith (Text.isEncodable_ofString _) fun name hname => ?_
    obtain ⟨f, hf, rfl⟩ := List.mem_map.1 (hperm.mem_iff.1 hname)
    exact (hfiles f hf).1

/-! ## Runs -/

theorem ofPath?_eq (h : path.IsEncodable) :
    Crash.ofPath? path = if CodePoint.ofNat 0 ∈ path then some .nullInPath else none := by
  unfold Crash.ofPath?
  rw [Utf8.encode_eq_ok h]

/-- A text with bytes is delivered, if the path can be handed to the disk. -/
theorem delivers_deliver (level : LogLevel) (now : Moment)
    (hpath : ∀ path ∈ a.output, path.IsEncodable) (hnull : ¬ NullInPath a)
    (htext : text.IsEncodable) :
    Delivers d text (deliver a (.silent level) now ⟨d, []⟩ text) a.output := by
  unfold deliver
  cases houtput : a.output with
  | none => exact .printed
  | some path =>
    have hnone : Crash.ofPath? path = none := by
      rw [ofPath?_eq (hpath path houtput), if_neg fun h => hnull ⟨path, houtput, h⟩]
    have hbytes := Utf8.encode_eq_ok
      (Text.isEncodable_append.2 ⟨htext, Text.isEncodable_ofString "\n"⟩)
    dsimp only
    rw [hnone]
    dsimp only
    rw [hbytes]
    dsimp only
    cases hwrite : d.write path (Utf8.encodeAll (text ++ Text.ofString "\n")) with
    | error fault =>
      exact .notSaved (fault.lineFeed_not_mem_message path) (Disk.directory_of_write_error hwrite)
    | ok d' =>
      obtain ⟨place, hplace, -, rfl⟩ := Disk.write_eq_ok_iff.1 hwrite
      dsimp only
      rw [Logging.write_silent]
      exact .saved hplace hbytes (Disk.find_write hwrite)

/-- A path that holds U+0000 breaks the delivery off. -/
theorem deliver_nullInPath (l : Logging) (now : Moment) (s : Surroundings) (text : Text)
    (hpath : ∀ path ∈ a.output, path.IsEncodable) (hnull : NullInPath a) :
    deliver a l now s text = (s, [], .crashed .nullInPath) := by
  obtain ⟨path, houtput, hmem⟩ := hnull
  have hcrash : Crash.ofPath? path = some .nullInPath := by
    rw [ofPath?_eq (hpath path houtput), if_pos hmem]
  unfold deliver
  rw [Option.mem_def.1 houtput]
  dsimp only
  rw [hcrash]

theorem Delivers.exists_status {left : Surroundings × Text × Ending} {output : Option Text}
    (h : Delivers d text left output) : ∃ status, left.2.2 = .ran status := by
  cases h with
  | printed => exact ⟨0, rfl⟩
  | saved => exact ⟨0, rfl⟩
  | notSaved => exact ⟨1, rfl⟩

/-- What is to be delivered to a file is in that file, if there can be one. -/
theorem Delivers.exists_saved {left : Surroundings × Text × Ending} {place : List Text}
    (h : Delivers d text left (some path)) (hplace : d.locate path = .ok place)
    (hfile : d.entries.get? place ≠ some .directory) :
    ∃ bytes, Utf8.encode (text ++ "\n") = .ok bytes
      ∧ left = (⟨d.put place (.file bytes), []⟩, [], .ran 0) := by
  cases h with
  | saved hsaved hbytes =>
    obtain rfl := Except.ok.inj (hplace.symm.trans hsaved)
    exact ⟨_, hbytes, rfl⟩
  | notSaved _ hnowhere => exact absurd (hnowhere place hplace) hfile

theorem execute_eq_runWith (loader : Loader) (extractors : List Extractor) (now : Moment) (d : Disk)
    (hread : program.read words = .ok (.run given)) :
    execute loader extractors words now d
      = runWith loader extractors (ofGiven given) now d := by
  unfold execute
  rw [hread]

/-- Where there are files, a path that holds U+0000 breaks the run off, and nothing is written. -/
theorem runWith_nullInPath {extractors : List Extractor} (now : Moment) (hquiet : a.IsQuiet)
    (hload : Config.loadWith loader d a.config = .ok (c, log))
    (hpath : ∀ path ∈ a.output, path.IsEncodable)
    (hfiles : (c.withAllowedPackages a.allow).resolveOnDisk extractors d a.entrypoint = .ok files)
    (hnull : NullInPath a) :
    (runWith loader extractors a now d).left = (⟨d, []⟩, [], .crashed .nullInPath) :=
  (runWith_of_files now hquiet hload hfiles).trans
    (deliver_nullInPath _ now _ _ hpath hnull)

/-- Runs that break off are not disciplined. -/
theorem IsDisciplined.not_crashed {s : Surroundings} {output : Text} {why : Crash}
    (hleft : run.left = (s, output, .crashed why)) : ¬ IsDisciplined a d (.ok files) run := by
  intro h
  obtain ⟨status, hstatus⟩ := (h.delivered files rfl).exists_status
  rw [hleft] at hstatus
  cases hstatus

/-- **Discipline.** Let the words be read without a directory for logs and without progress, and let
a configuration be loaded, by any loader. Then the library comes to files or reports an error, and
whatever is logged, the program writes that and nothing else to where it belongs, unless there are
files and the path for the output holds U+0000: then it breaks off, and has written nothing. The
paths that it shows are the names of the files that it shows in JSON, in ascending order. -/
theorem run_disciplined (now : Moment) (hread : program.read words = .ok (.run given))
    (ha : ofGiven given = a) (hquiet : a.IsQuiet)
    (hload : Config.loadWith loader d a.config = .ok (c, log))
    (hentry : a.entrypoint.IsEncodable) (hpath : ∀ path ∈ a.output, path.IsEncodable)
    (hlibrary : (c.withAllowedPackages a.allow).resolveOnDisk (parserExtractors parsers) d
      a.entrypoint = library) :
    ((∃ files, library = .ok files) ∨ ∃ e, library = .error (.reported e))
      ∧ (IsDisciplined a d library (execute loader (parserExtractors parsers) words now d)
          ↔ ¬ ((∃ files, library = .ok files) ∧ NullInPath a))
      ∧ ((∃ files, library = .ok files) ∧ NullInPath a →
          (execute loader (parserExtractors parsers) words now d).left
            = (⟨d, []⟩, [], .crashed .nullInPath))
      ∧ ∀ files, library = .ok files → ∃ fields names,
          Json.parse (render .json a.entrypoint files ++ "\n")
              = some (.object [("entrypoint", .text a.entrypoint), ("files", .object fields)])
            ∧ render .paths a.entrypoint files = Text.joinWith "\n" names
            ∧ Text.Ascending names ∧ names.Perm (fields.map Prod.fst) := by
  subst ha
  rw [execute_eq_runWith loader _ now d hread]
  refine ⟨hlibrary ▸ Config.resolveOnDisk_cases _ parsers d _, ⟨?_, ?_⟩, ?_, ?_⟩
  · rintro hdiscipline ⟨⟨files, rfl⟩, hnull⟩
    exact IsDisciplined.not_crashed (runWith_nullInPath now hquiet hload hpath hlibrary hnull)
      hdiscipline
  · intro hnot
    refine ⟨?_, ?_⟩
    · rintro e rfl
      obtain ⟨hsurroundings, houtput, hending⟩ := runWith_of_error now hquiet hload hlibrary
      unfold Outcome.left
      rw [hsurroundings, houtput, hending]
    · rintro files rfl
      have hleft : (runWith loader (parserExtractors parsers) (ofGiven given) now d).left
          = deliver (ofGiven given) (.silent .warning) now ⟨d, []⟩
            (render (ofGiven given).format (ofGiven given).entrypoint files) :=
        runWith_of_files now hquiet hload hlibrary
      rw [hleft]
      exact delivers_deliver _ now hpath (fun hnull => hnot ⟨⟨files, rfl⟩, hnull⟩)
        (isEncodable_render _ hentry (Config.isEncodable_of_resolveOnDisk hlibrary))
  · rintro ⟨⟨files, rfl⟩, hnull⟩
    exact runWith_nullInPath now hquiet hload hpath hlibrary hnull
  · rintro files rfl
    obtain ⟨names, hnames, hascending, hperm⟩ := render_paths (ofGiven given).entrypoint files
    refine ⟨files.entries.map fun f => (f.1, .text f.2), names, ?_, hnames, hascending, ?_⟩
    · exact FrontEnds.parse_render hentry (Config.isEncodable_of_resolveOnDisk hlibrary)
    · rw [List.map_map]
      exact hperm

/-! ## The files of a script in a file -/

open ProgramSpec (Use)
open FrontEnds (scriptImporting configuredDisk loadWith_configuredDisk exists_files_scriptImporting)

/-- The option for the file that takes the output. -/
def outputOption : OptionSpec :=
  ⟨["-o", "--output"], .one, "OUTPUT", [], "Output file (default: stdout)"⟩

theorem isRead_output {path : Text} (h : program.IsArgument path) :
    (Use.mk outputOption "-o" [path]).IsRead program where
  name := rfl
  name_ne := show Text.ofString "-o" ≠ Text.ofString "--" by decide
  arguments := List.forall_mem_singleton.2 h
  taken := rfl
  not_help := show outputOption ≠ OptionSpec.help? by decide
  any_argument := rfl

/-- The command line that saves the files of the script `a.js`, which has the package `q`. -/
def savingLine (path : Text) : List Text :=
  scriptImporting.path
    :: [Use.mk allowOption "--allow" [['q']], ⟨outputOption, "-o", [path]⟩].flatMap Use.words

/-- What the program is asked for by such a command line. -/
def savingArguments (path : Text) : Arguments :=
  ⟨scriptImporting.path, [['q']], none, .json, some path, none, false⟩

theorem read_savingLine (path : Text) (h : program.IsArgument path) :
    ∃ given, program.read (savingLine path) = .ok (.run given)
      ∧ ofGiven given = savingArguments (Path.clean path) := by
  have hword : ∀ word ∈ [scriptImporting.path, ['q']], program.IsArgument word := by
    intro word hword
    refine ProgramSpec.isArgument_of_head? ?_
    revert word
    decide
  obtain ⟨hentry, hpackage⟩ := List.forall_mem_cons.1 hword
  have huses : ∀ u ∈ [Use.mk allowOption "--allow" [['q']], ⟨outputOption, "-o", [path]⟩],
      u.IsRead program :=
    List.forall_mem_cons.2 ⟨isRead_allow (List.cons_ne_nil _ _) hpackage,
      List.forall_mem_singleton.2 (isRead_output h)⟩
  exact ⟨_, ProgramSpec.read_uses rfl hentry huses, rfl⟩

/-- The path `out`. -/
def outPath : Text := ['o', 'u', 't']

/-- The path that is `x`, U+0000 and `y`. -/
def nullPath : Text := ['x', CodePoint.ofNat 0, 'y']

theorem savingLine_saved : ∃ given files bytes,
    program.read (savingLine outPath) = .ok (.run given)
      ∧ ofGiven given = savingArguments outPath
      ∧ (Config.standard.withAllowedPackages [['q']]).resolveOnDisk
        (parserExtractors SyntaxNode.ofText) configuredDisk scriptImporting.path = .ok files
      ∧ IsDisciplined (savingArguments outPath) configuredDisk (.ok files)
        (execute Yaml.loader (parserExtractors SyntaxNode.ofText) (savingLine outPath)
          (Moment.ofSeconds 0 0) configuredDisk)
      ∧ (execute Yaml.loader (parserExtractors SyntaxNode.ofText) (savingLine outPath)
          (Moment.ofSeconds 0 0) configuredDisk).left
        = (⟨configuredDisk.put [['w'], outPath] (.file bytes), []⟩, [], .ran 0) := by
  obtain ⟨files, hfiles, -⟩ := exists_files_scriptImporting
  obtain ⟨given, hread, hgiven⟩ :=
    read_savingLine outPath (ProgramSpec.isArgument_of_head? (by decide))
  have hclean : Path.clean outPath = outPath := by decide
  rw [hclean] at hgiven
  have hpath : ∀ path ∈ (savingArguments outPath).output, path.IsEncodable := by decide
  have hnull : ¬ NullInPath (savingArguments outPath) := by
    rintro ⟨path, hpath, hmem⟩
    obtain rfl : outPath = path := Option.some.inj hpath
    exact absurd hmem (by decide)
  obtain ⟨-, hiff, -⟩ := run_disciplined (Moment.ofSeconds 0 0) hread hgiven ⟨rfl, rfl⟩
    loadWith_configuredDisk (by decide +kernel) hpath hfiles
  have hdisciplined := hiff.2 fun h => hnull h.2
  have hlocate : configuredDisk.locate outPath = .ok [['w'], outPath] := rfl
  have hnone : configuredDisk.entries.get? [['w'], outPath] ≠ some .directory := by decide
  obtain ⟨bytes, -, hleft⟩ := (hdisciplined.delivered files rfl).exists_saved hlocate hnone
  exact ⟨given, files, bytes, hread, hgiven, hfiles, hdisciplined, hleft⟩

/-- The files are there, but the path cannot be used, and the run does not say so. -/
theorem savingLine_nullPath : ∃ given files,
    program.read (savingLine nullPath) = .ok (.run given)
      ∧ (ofGiven given).IsQuiet
      ∧ Config.loadWith Yaml.loader configuredDisk (ofGiven given).config
        = .ok (Config.usingDefaults "Configuration file is empty")
      ∧ (Config.standard.withAllowedPackages (ofGiven given).allow).resolveOnDisk
        (parserExtractors SyntaxNode.ofText) configuredDisk (ofGiven given).entrypoint = .ok files
      ∧ (execute Yaml.loader (parserExtractors SyntaxNode.ofText) (savingLine nullPath)
          (Moment.ofSeconds 0 0) configuredDisk).left
        = (⟨configuredDisk, []⟩, [], .crashed .nullInPath)
      ∧ ¬ IsDisciplined (ofGiven given) configuredDisk (.ok files)
        (execute Yaml.loader (parserExtractors SyntaxNode.ofText) (savingLine nullPath)
          (Moment.ofSeconds 0 0) configuredDisk) := by
  obtain ⟨files, hfiles, -⟩ := exists_files_scriptImporting
  obtain ⟨given, hread, hgiven⟩ :=
    read_savingLine nullPath (ProgramSpec.isArgument_of_head? (by decide))
  have hclean : Path.clean nullPath = nullPath := by decide
  rw [hclean] at hgiven
  have hpath : ∀ path ∈ (savingArguments nullPath).output, path.IsEncodable := by decide
  have hleft : (execute Yaml.loader (parserExtractors SyntaxNode.ofText) (savingLine nullPath)
      (Moment.ofSeconds 0 0) configuredDisk).left
      = (⟨configuredDisk, []⟩, [], .crashed .nullInPath) := by
    rw [execute_eq_runWith _ _ _ _ hread, hgiven]
    exact runWith_nullInPath _ ⟨rfl, rfl⟩ loadWith_configuredDisk hpath hfiles
      ⟨nullPath, rfl, by decide⟩
  refine ⟨given, files, hread, ?_, ?_, ?_, hleft, IsDisciplined.not_crashed hleft⟩
  · rw [hgiven]
    exact ⟨rfl, rfl⟩
  · rw [hgiven]
    exact loadWith_configuredDisk
  · rw [hgiven]
    exact hfiles

end CommandLine

end ImportClosure
