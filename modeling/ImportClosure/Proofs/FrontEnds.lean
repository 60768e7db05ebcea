import ImportClosure.Proofs.CommandWords
import ImportClosure.Proofs.QuietRun
import ImportClosure.Proofs.ReportJson
import ImportClosure.Proofs.ToolSession
import ImportClosure.Yaml.Load
/-!
Three ways to ask for the files of an entrypoint.

The program, the server and the library each make a configuration with further packages, a reader of
the disk with the size limit of the configuration, and a run; the program and the server then put
the outcome into JSON, the program as text. What the program writes can be read back, since what is
on a disk has bytes and so have the texts of an error, and it is all that the program writes. So
each of the three tells the outcome of the others (`front_ends_agree`): the files with their
contents in the order in which they were found, or the error with all its fields.

The program does not take every list of packages, though. A word that begins with a hyphen is no
argument of an option that takes several, so a command line that has such words is refused, while
the server and the library take them for names (`front_ends_differ`).
-/

namespace ImportClosure.FrontEnds

open ImportClosure.CommandLine (program)
open ImportClosure.Registry (parserExtractors)
open ImportClosure.Resolution (Answers)

variable {loader : Loader} {parsers : Parsers} {d : Disk} {c : Config} {log : List LogRecord}
variable {entrypoint : Text} {packages words : List Text}
variable {run : CommandLine.Outcome} {answer : Except Failure Json} {given : Given}
variable {library : Except Failure (OrderedMap Text Text)} {files : OrderedMap Text Text}
variable {e : ResolutionError}

/-- What is written about the files of an entrypoint. -/
def written (entrypoint : Text) (files : OrderedMap Text Text) : Json :=
  .object [("entrypoint", .text entrypoint), ("files", files.toJson)]

/-- What is answered about the files of an entrypoint. -/
def answered (entrypoint : Text) (files : OrderedMap Text Text) : Json :=
  .object [("entrypoint", .text entrypoint), ("success", .bool true), ("files", files.toJson)]

/-- What is answered about an entrypoint with this error. -/
def refused (entrypoint : Text) (error : Json) : Json :=
  .object [("entrypoint", .text entrypoint), ("success", .bool false), ("error", error)]

/-- A run of the program and an answer of the server say what a run of the library comes to. -/
structure Agree (entrypoint : Text) (run : CommandLine.Outcome) (answer : Except Failure Json)
    (library : Except Failure (OrderedMap Text Text)) : Prop where
  /-- The program ends with 0 and writes these files exactly if the library returns them. -/
  run_files : ∀ files,
    (run.ending = .ran 0 ∧ Json.parse run.output = some (written entrypoint files))
      ↔ library = .ok files
  /-- The server answers with these files exactly if the library returns them. -/
  answer_files : ∀ files, answer = .ok (answered entrypoint files) ↔ library = .ok files
  /-- The program ends with 1 and writes this error exactly if the library reports it. -/
  run_error : ∀ j, (run.ending = .ran 1 ∧ Json.parse run.surroundings.errors = some j)
    ↔ ∃ e, library = .error (.reported e) ∧ e.toJson = j
  /-- The server answers with this error exactly if the library reports it. -/
  answer_error : ∀ j, answer = .ok (refused entrypoint j)
    ↔ ∃ e, library = .error (.reported e) ∧ e.toJson = j

/-! ## Telling answers apart -/

/-- Objects that differ in the last field at most tell the value of that field. -/
theorem lastField_inj (fields : List (Text × Json)) {name : Text} {j j' : Json}
    (h : Json.object (fields ++ [(name, j)]) = .object (fields ++ [(name, j')])) : j = j' := by
  simpa using h

theorem answered_ne_refused {j : Json} : answered entrypoint files ≠ refused entrypoint j := by
  unfold answered refused
  simp

/-- They agree if the library returns files that the others tell. -/
theorem Agree.of_files (hending : run.ending = .ran 0)
    (houtput : Json.parse run.output = some (written entrypoint files)) :
    Agree entrypoint run (.ok (answered entrypoint files)) (.ok files) where
  run_files files' := by
    rw [houtput]
    constructor
    · rintro ⟨-, h⟩
      have hjson : files.toJson = files'.toJson := lastField_inj [_] (Option.some.inj h)
      rw [OrderedMap.toJson_injective hjson]
    · intro h
      rw [Except.ok.inj h]
      exact ⟨hending, rfl⟩
  answer_files files' := by
    constructor
    · intro h
      have hjson : files.toJson = files'.toJson := lastField_inj [_, _] (Except.ok.inj h)
      rw [OrderedMap.toJson_injective hjson]
    · intro h
      rw [Except.ok.inj h]
  -- there is no error, and the ending and the answer are not those of one
  run_error j := by
    rw [hending]
    simp
  answer_error j := by
    constructor
    · intro h
      exact absurd (Except.ok.inj h) answered_ne_refused
    · rintro ⟨_, h, -⟩
      cases h

/-- They agree if the library reports an error that the others tell. -/
theorem Agree.of_error (hending : run.ending = .ran 1)
    (herrors : Json.parse run.surroundings.errors = some e.toJson) :
    Agree entrypoint run (.ok (refused entrypoint e.toJson)) (.error (.reported e)) where
  -- there are no files, and the ending and the answer are not those about files
  run_files files := by
    rw [hending]
    simp
  answer_files files := by
    constructor
    · intro h
      exact absurd (Except.ok.inj h).symm answered_ne_refused
    · intro h
      cases h
  run_error j := by
    rw [herrors]
    constructor
    · rintro ⟨-, h⟩
      exact ⟨e, rfl, Option.some.inj h⟩
    · rintro ⟨e', h, rfl⟩
      obtain rfl : e = e' := by simpa using h
      exact ⟨hending, rfl⟩
  answer_error j := by
    constructor
    · intro h
      exact ⟨e, rfl, lastField_inj [_, _] (Except.ok.inj h)⟩
    · rintro ⟨e', h, rfl⟩
      obtain rfl : e = e' := by simpa using h
      rfl

/-! ## The program -/

theorem isSpace_of_mem_lineEnd : ∀ c ∈ Text.ofString "\n", Json.isSpace c = true :=
  List.forall_mem_singleton.2 (by decide)

theorem isPlain_written (hentry : entrypoint.IsEncodable)
    (hfiles : ∀ f ∈ files.entries, f.1.IsEncodable ∧ f.2.IsEncodable) :
    (written entrypoint files).IsPlain Text.IsEncodable := by
  unfold written
  rw [Json.isPlain_object_iff, List.forall_mem_cons, List.forall_mem_singleton]
  exact ⟨⟨Text.isEncodable_ofString _, .text hentry⟩, Text.isEncodable_ofString _,
    OrderedMap.isPlain_toJson hfiles⟩

theorem parse_render (hentry : entrypoint.IsEncodable)
    (hfiles : ∀ f ∈ files.entries, f.1.IsEncodable ∧ f.2.IsEncodable) :
    Json.parse (CommandLine.render .json entrypoint files ++ Text.ofString "\n")
      = some (written entrypoint files) :=
  Json.parse_print (isPlain_written hentry hfiles) (some 2) isSpace_of_mem_lineEnd

theorem parse_renderError (h : e.IsEncodable) :
    Json.parse (CommandLine.renderError .json e ++ Text.ofString "\n") = some e.toJson :=
  Json.parse_print h.isPlain_toJson (some 2) isSpace_of_mem_lineEnd

/-- A run of the program agrees with the server and the library, if its arguments ask for JSON and
for nothing else. -/
theorem agree_runWith {a : Arguments} (now : Moment) (ha : a.IsQuiet) (hformat : a.format = .json)
    (houtput : a.output = none) (hload : Config.loadWith loader d a.config = .ok (c, log))
    (hentry : a.entrypoint.IsEncodable)
    (herrors : ∀ e, (c.withAllowedPackages a.allow).resolveOnDisk (parserExtractors parsers) d
      a.entrypoint = .error (.reported e) → e.IsEncodable) :
    Agree a.entrypoint (CommandLine.runWith loader (parserExtractors parsers) a now d)
      ((ToolServer.onDisk c (parserExtractors parsers) d).answer a.entrypoint a.allow)
      ((c.withAllowedPackages a.allow).resolveOnDisk (parserExtractors parsers) d
        a.entrypoint) := by
  rw [ToolServer.answer_onDisk]
  -- all three come from one run, which ends in one of two ways
  rcases (c.withAllowedPackages a.allow).resolveOnDisk_cases parsers d a.entrypoint with
    ⟨files, hout⟩ | ⟨e, hout⟩
  · obtain ⟨-, htext, hending⟩ :=
      CommandLine.runWith_of_files_output now ha houtput hload hout
    rw [hformat] at htext
    rw [hout]
    refine Agree.of_files hending ?_
    rw [htext]
    exact parse_render hentry (Config.isEncodable_of_resolveOnDisk hout)
  · obtain ⟨hsurroundings, -, hending⟩ :=
      CommandLine.runWith_of_error now ha hload hout
    rw [hformat] at hsurroundings
    rw [hout]
    refine Agree.of_error hending ?_
    rw [hsurroundings]
    exact parse_renderError (herrors e hout)

/-! ## Two scripts beside a configuration file -/

/-- The script `a.js`, which imports the package `q`. -/
def scriptImporting : SourceFile := ⟨['a', Path.dot, 'j', 's'], "import 'q'", some .javascript⟩

/-- The script `b.js`, which is empty. -/
def scriptEmpty : SourceFile := ⟨['b', Path.dot, 'j', 's'], [], some .javascript⟩

/-- The two scripts beside a configuration file, which is empty as well. -/
def configuredDisk : Disk where
  working := [['w']]
  entries := .ofList
    [([['w']], .directory), ([['w'], Config.fileName], .file []),
      ([['w'], scriptImporting.path], .file (Utf8.encodeAll scriptImporting.content)),
      ([['w'], scriptEmpty.path], .file [])]

theorem loadWith_configuredDisk : Config.loadWith Yaml.loader configuredDisk none
    = .ok (Config.usingDefaults "Configuration file is empty") := by
  have hfind : configuredDisk.find (configuredDisk.absolutePath Config.fileName)
      = .ok (.file []) := by decide +kernel
  unfold Config.loadWith Config.ofFile
  dsimp only
  rw [hfind]
  rfl

/-- Enough rounds that end with files tell these files. -/
theorem exists_files_of_run {extractors : List Extractor} {entry : SourceFile} {n : Nat}
    {entries : List (Text × Text)} (he : Resolution.IsEntry (c.diskReader d) entry.path entry)
    (h : (Resolution.run (c.settings extractors) (c.diskReader d) n
      (Resolution.start entry)).outcome.toOption.map OrderedMap.entries = some entries) :
    ∃ files, c.resolveOnDisk extractors d entry.path = .ok files ∧ files.entries = entries := by
  have hfinite : (c.diskReader d).IsFinite := d.isFinite_reader (some c.maxFileSize)
  cases hout : (Resolution.run (c.settings extractors) (c.diskReader d) n
      (Resolution.start entry)).outcome with
  | error why =>
    rw [hout] at h
    exact absurd h nofun
  | ok files =>
    rw [hout] at h
    refine ⟨files, ?_, Option.some.inj h⟩
    have hrun : ImportClosure.resolve (c.settings extractors) (c.diskReader d) entry.path
        = Resolution.run (c.settings extractors) (c.diskReader d) n (Resolution.start entry) := by
      refine Resolution.resolve_eq_run hfinite he ?_
      rw [hout]
      exact nofun
    exact (congrArg Resolution.outcome hrun).trans hout

/-- With the package `q` the script that imports it is all that it needs. -/
theorem exists_files_scriptImporting : ∃ files,
    (Config.standard.withAllowedPackages [['q']]).resolveOnDisk
      (parserExtractors SyntaxNode.ofText) configuredDisk scriptImporting.path = .ok files
      ∧ files.entries = [scriptImporting.entry] := by
  refine exists_files_of_run (n := 1) ⟨by decide +kernel, nofun⟩ ?_
  decide +kernel

/-- The empty script is all that it needs, whatever the packages are called. -/
theorem exists_files_scriptEmpty : ∃ files,
    (Config.standard.withAllowedPackages [['-', 'x'], ['-', 'y']]).resolveOnDisk
      (parserExtractors SyntaxNode.ofText) configuredDisk scriptEmpty.path = .ok files
      ∧ files.entries = [scriptEmpty.entry] := by
  refine exists_files_of_run (n := 1) ⟨by decide +kernel, nofun⟩ ?_
  decide +kernel

/-- **Agreement.** Let a configuration be loaded, by any loader, from the file that is named or from
the one in the working directory, and let the entrypoint and the texts of an error have bytes. Then
each command line that asks for JSON about the entrypoint with these packages, and for nothing else,
tells what the server answers and what the library returns; there is such a command line if none of
the words could be an option. The library returns files or reports one of four errors. And however
often the server is called, with whatever packages, each answer is that of a server with the
configuration as it was loaded. -/
theorem front_ends_agree (now : Moment) (path : Option Text)
    (hload : Config.loadWith loader d (path.map Path.clean) = .ok (c, log))
    (hentry : entrypoint.IsEncodable)
    (herrors : ∀ e, (c.withAllowedPackages packages).resolveOnDisk (parserExtractors parsers) d
      entrypoint = .error (.reported e) → e.IsEncodable) :
    (∀ words given, program.read words = .ok (.run given) →
        CommandLine.ofGiven given
          = ⟨entrypoint, packages, path.map Path.clean, .json, none, none, false⟩ →
        Agree entrypoint (CommandLine.execute loader (parserExtractors parsers) words now d)
          ((ToolServer.onDisk c (parserExtractors parsers) d).answer entrypoint packages)
          ((c.withAllowedPackages packages).resolveOnDisk (parserExtractors parsers) d entrypoint))
      ∧ ((∀ word ∈ entrypoint :: path.toList ++ packages, program.IsArgument word) →
        ∃ given, program.read (CommandLine.line entrypoint path packages) = .ok (.run given)
          ∧ CommandLine.ofGiven given
            = ⟨entrypoint, packages, path.map Path.clean, .json, none, none, false⟩)
      ∧ Answers ((c.withAllowedPackages packages).settings (parserExtractors parsers)) entrypoint
          ((c.withAllowedPackages packages).resolveOnDisk (parserExtractors parsers) d entrypoint)
      ∧ ∀ (m : NameLists) (o : ConfigObject) (calls : List ToolServer.Call),
          o.IsIn m → o.value m = c →
          ToolServer.serveAll (parserExtractors parsers) o m calls = calls.map fun call =>
            (ToolServer.onDisk c (parserExtractors parsers) call.disk).answer call.entrypoint
              call.packages := by
  refine ⟨?_, ?_, Config.answers_resolveOnDisk _ parsers d entrypoint, ?_⟩
  · intro words given hread hgiven
    have hrun : CommandLine.execute loader (parserExtractors parsers) words now d
        = CommandLine.runWith loader (parserExtractors parsers)
          ⟨entrypoint, packages, path.map Path.clean, .json, none, none, false⟩ now d := by
      unfold CommandLine.execute
      rw [hread]
      dsimp only
      rw [hgiven]
    have hquiet : Arguments.IsQuiet
        ⟨entrypoint, packages, path.map Path.clean, .json, none, none, false⟩ := ⟨rfl, rfl⟩
    rw [hrun]
    exact agree_runWith now hquiet rfl rfl hload hentry herrors
  · intro harguments
    rw [List.forall_mem_append, List.forall_mem_cons] at harguments
    obtain ⟨⟨hentrypoint, hpath⟩, hpackages⟩ := harguments
    exact CommandLine.read_line hentrypoint (fun p hp => hpath p (Option.mem_toList.2 hp)) hpackages
  · rintro m o calls hin rfl
    exact ToolServer.serveAll_eq hin calls

/-- The program and the server give the script `a.js` with the package `q`. -/
theorem scriptImporting_agree : ∃ files, files.entries = [scriptImporting.entry]
    ∧ (CommandLine.execute Yaml.loader (parserExtractors SyntaxNode.ofText)
        (CommandLine.line scriptImporting.path none [['q']]) (Moment.ofSeconds 0 0)
        configuredDisk).ending = .ran 0
    ∧ Json.parse (CommandLine.execute Yaml.loader (parserExtractors SyntaxNode.ofText)
        (CommandLine.line scriptImporting.path none [['q']]) (Moment.ofSeconds 0 0)
        configuredDisk).output = some (written scriptImporting.path files)
    ∧ (ToolServer.onDisk Config.standard (parserExtractors SyntaxNode.ofText)
        configuredDisk).answer scriptImporting.path [['q']]
      = .ok (answered scriptImporting.path files) := by
  obtain ⟨files, hfiles, hentries⟩ := exists_files_scriptImporting
  have herrors : ∀ e, (Config.standard.withAllowedPackages [['q']]).resolveOnDisk
      (parserExtractors SyntaxNode.ofText) configuredDisk scriptImporting.path
      = .error (.reported e) → e.IsEncodable := by
    intro e he
    rw [hfiles] at he
    exact absurd he nofun
  obtain ⟨hagree, hline, -, -⟩ := front_ends_agree (Moment.ofSeconds 0 0) none
    loadWith_configuredDisk (by decide +kernel) herrors
  obtain ⟨given, hread, hgiven⟩ := hline (by
    intro word hword
    refine ProgramSpec.isArgument_of_head? ?_
    revert word
    decide)
  have h := hagree _ given hread hgiven
  obtain ⟨hending, houtput⟩ := (h.run_files files).2 hfiles
  exact ⟨files, hentries, hending, houtput, (h.answer_files files).2 hfiles⟩

/-- The packages `-x` and `-y` are names to the server and to the library, but no arguments to the
program, which refuses the command line. -/
theorem front_ends_differ : ∃ files, files.entries = [scriptEmpty.entry]
    ∧ Config.loadWith Yaml.loader configuredDisk none
      = .ok (Config.usingDefaults "Configuration file is empty")
    ∧ (Config.standard.withAllowedPackages [['-', 'x'], ['-', 'y']]).resolveOnDisk
        (parserExtractors SyntaxNode.ofText) configuredDisk scriptEmpty.path = .ok files
    ∧ (ToolServer.onDisk Config.standard (parserExtractors SyntaxNode.ofText)
        configuredDisk).answer scriptEmpty.path [['-', 'x'], ['-', 'y']]
      = .ok (answered scriptEmpty.path files)
    ∧ (CommandLine.execute Yaml.loader (parserExtractors SyntaxNode.ofText)
        (CommandLine.line scriptEmpty.path none [['-', 'x'], ['-', 'y']]) (Moment.ofSeconds 0 0)
        configuredDisk).ending = .notRun 2 := by
  obtain ⟨files, hfiles, hentries⟩ := exists_files_scriptEmpty
  refine ⟨files, hentries, loadWith_configuredDisk, hfiles, ?_, ?_⟩
  · rw [ToolServer.answer_onDisk, hfiles]
    rfl
  · -- the first word after the option is an unknown option itself
    have hrefused : (program.read (CommandLine.line scriptEmpty.path none
        [['-', 'x'], ['-', 'y']])).toOption.isNone = true := by decide +kernel
    unfold CommandLine.execute
    cases hread : program.read
        (CommandLine.line scriptEmpty.path none [['-', 'x'], ['-', 'y']]) with
    | error fault => rfl
    | ok reading =>
      rw [hread] at hrefused
      exact absurd hrefused Bool.false_ne_true

end ImportClosure.FrontEnds
