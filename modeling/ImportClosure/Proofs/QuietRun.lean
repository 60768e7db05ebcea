import ImportClosure.CommandLine.Execution
import ImportClosure.Proofs.DiskRun
/-!
Runs of the program that log nothing.

Without a directory for log files and without the option for progress, the log is set up with a
sink that receives records and keeps none of them. So nothing that is reported, while the
configuration is read, while files are looked up or while they turn out not to parse, reaches the
error output or the disk (`writeAll_silent`), and what the program writes is settled by what the run
comes to: the error and nothing else, or the files and nothing else.
-/

namespace ImportClosure

namespace Logging

variable {level : LogLevel} {now : Moment} {s : Surroundings}

/-! ## Silent logs -/

/-- A log of this level that keeps nothing. -/
def silent (level : LogLevel) : Logging := ⟨level, [.silent]⟩

theorem write_silent (r : LogRecord) : (silent level).write now s r = s := by
  have hreceive : receive now r s .silent = s := by
    unfold receive
    split <;> rfl
  unfold write
  split
  · rfl
  · exact hreceive

theorem writeAll_silent (rs : List LogRecord) : (silent level).writeAll now s rs = s := by
  unfold writeAll
  induction rs with
  | nil => rfl
  | cons r rs ih => rw [List.foldl_cons, write_silent, ih]

end Logging

/-! ## Runs -/

/-- The arguments ask for no log. -/
structure Arguments.IsQuiet (a : Arguments) : Prop where
  logDirectory : a.logDirectory = none
  verbose : a.verbose = false

/-- The log is then set up so that it keeps nothing. -/
theorem Arguments.IsQuiet.setUp {a : Arguments} (ha : a.IsQuiet) (level : LogLevel) (now : Moment)
    (s : Surroundings) :
    Logging.setUp a.logDirectory level a.verbose now s = ⟨.silent level, s, .ok none⟩ := by
  rw [ha.logDirectory, ha.verbose]
  rfl

namespace CommandLine

variable {loader : Loader} {extractors : List Extractor} {a : Arguments} {d : Disk} {c : Config}
variable {log : List LogRecord} {files : OrderedMap Text Text} {e : ResolutionError}

/-- A run that is refused writes the error, and does nothing else. -/
theorem runWith_of_error (now : Moment) (ha : a.IsQuiet)
    (hload : Config.loadWith loader d a.config = .ok (c, log))
    (h : (c.withAllowedPackages a.allow).resolveOnDisk extractors d a.entrypoint
      = .error (.reported e)) :
    (runWith loader extractors a now d).surroundings = ⟨d, renderError a.format e ++ "\n"⟩
      ∧ (runWith loader extractors a now d).output = []
      ∧ (runWith loader extractors a now d).ending = .ran 1 := by
  unfold Config.resolveOnDisk at h
  unfold runWith
  -- whatever was reported on the way, the disk and the error output are those of the start
  simp only [ha.setUp, hload, Logging.writeAll_silent, h, and_true]
  rfl

/-- A run that succeeds delivers the files, and does nothing else. -/
theorem runWith_of_files (now : Moment) (ha : a.IsQuiet)
    (hload : Config.loadWith loader d a.config = .ok (c, log))
    (h : (c.withAllowedPackages a.allow).resolveOnDisk extractors d a.entrypoint = .ok files) :
    ((runWith loader extractors a now d).surroundings, (runWith loader extractors a now d).output,
        (runWith loader extractors a now d).ending)
      = deliver a (.silent .warning) now ⟨d, []⟩ (render a.format a.entrypoint files) := by
  unfold Config.resolveOnDisk at h
  unfold runWith
  simp only [ha.setUp, hload, Logging.writeAll_silent, h]
  rw [ha.verbose, if_neg Bool.false_ne_true]

theorem runWith_of_files_output (now : Moment) (ha : a.IsQuiet) (houtput : a.output = none)
    (hload : Config.loadWith loader d a.config = .ok (c, log))
    (h : (c.withAllowedPackages a.allow).resolveOnDisk extractors d a.entrypoint = .ok files) :
    (runWith loader extractors a now d).surroundings = ⟨d, []⟩
      ∧ (runWith loader extractors a now d).output = render a.format a.entrypoint files ++ "\n"
      ∧ (runWith loader extractors a now d).ending = .ran 0 := by
  have hdeliver := runWith_of_files now ha hload h
  unfold deliver at hdeliver
  rw [houtput] at hdeliver
  simpa using hdeliver

end CommandLine

end ImportClosure
