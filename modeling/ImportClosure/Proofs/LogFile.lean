import ImportClosure.Log.Sink
import ImportClosure.Proofs.Decoding
import ImportClosure.Proofs.DiskWrites
import ImportClosure.Proofs.LogLine
import ImportClosure.Proofs.Text
/-!
Log files.

A log file is a text of lines, and each line is one record (`IsFramed`). A line is printable ASCII,
so nothing that a record says can end it early or stand for a record of its own: from the text
alone the records are found again, in order, with what each of them says. A log that was set up with
a directory writes in this way: after whatever the file held comes the text of the records that
reach the level of the log, the report of the set-up first (`log_framed`). On the disk, one record
adds one line to the end of the file (`find_write_toFile`), and many records add the lines of those
that are kept (`find_writeEach`).
-/

namespace ImportClosure.Logging

variable {d d' : Disk} {s : Surroundings} {now : Moment} {r : LogRecord}
variable {log : List (Moment × LogRecord)} {path directory : Text} {before : Bytes}
variable {level : LogLevel} {onConsole : Bool} {u : SetUp}

/-! ## Texts of records -/

/-- The text of a log: a line for each record, made at its moment. -/
def logText (log : List (Moment × LogRecord)) : Text :=
  log.flatMap fun e => e.2.fileLine e.1 ++ "\n"

/-- The text is made of the lines of the records, in order, and each line tells its record. -/
structure IsFramed (log : List (Moment × LogRecord)) (text : Text) : Prop where
  /-- At its line feeds the text falls into the lines of the records; the last one is ended too. -/
  lines : Text.splitOn '\n' text = (log.map fun e => e.2.fileLine e.1) ++ [[]]
  /-- Nothing but printable ASCII is in a line. -/
  printable : ∀ e ∈ log, (e.2.fileLine e.1).IsPrintable
  /-- A line is an object that has the fields of the record. -/
  told : ∀ e ∈ log, ∃ fields, Json.parse (e.2.fileLine e.1) = some (.object fields)
    ∧ e.2.IsToldBy e.1 fields

/-- **Framing.** The text of a log tells its records, one on each line. -/
theorem isFramed_logText (hlog : ∀ e ∈ log, e.2.HasTextFields) : IsFramed log (logText log) := by
  have hprintable : ∀ e ∈ log, (e.2.fileLine e.1).IsPrintable :=
    fun e he => LogRecord.isPrintable_fileLine (hlog e he)
  refine ⟨?_, hprintable, fun e he => LogRecord.exists_told (hlog e he)⟩
  -- no line holds a line feed, so splitting finds those that end the lines
  have hlines : ∀ line ∈ log.map fun e => e.2.fileLine e.1, CodePoint.ofChar '\n' ∉ line := by
    intro line hline
    obtain ⟨e, he, rfl⟩ := List.mem_map.1 hline
    exact (hprintable e he).isOneLine.lineFeed_not_mem
  rw [← Text.splitOn_flatMap hlines, List.flatMap_map]
  rfl

theorem isAscii_logText (hlog : ∀ e ∈ log, e.2.HasTextFields) : (logText log).IsAscii := by
  intro c hc
  obtain ⟨e, he, hc⟩ := List.mem_flatMap.1 hc
  rcases List.mem_append.1 hc with hline | hend
  · exact (LogRecord.isPrintable_fileLine (hlog e he) c hline).2.trans (by decide)
  · obtain rfl := List.mem_singleton.1 hend
    decide

/-- The bytes of the text of a log are read as this text. -/
theorem decode_logText (hlog : ∀ e ∈ log, e.2.HasTextFields) :
    Utf8.decode (Utf8.encodeAll (logText log)) = .ok (logText log) :=
  Utf8.decode_eq_ok_iff.2 (Utf8.encode_eq_ok (isAscii_logText hlog).isEncodable)

/-! ## Writing to a file -/

/-- A log with a file, and on the console if it is wanted there. -/
def toFile (path : Text) (level : LogLevel) (onConsole : Bool) : Logging :=
  ⟨level, .file path level :: if onConsole then [.console level] else []⟩

/-- Records written one after the other, each at its moment. -/
def writeEach (l : Logging) (s : Surroundings) (log : List (Moment × LogRecord)) : Surroundings :=
  log.foldl (fun s e => l.write e.1 s e.2) s

/-- The records that reach the level of a log. -/
def kept (l : Logging) (log : List (Moment × LogRecord)) : List (Moment × LogRecord) :=
  log.filter fun e => l.isEnabled e.2

/-- The console takes nothing to the disk. -/
theorem disk_foldl_console :
    ((if onConsole then [Sink.console level] else []).foldl (receive now r) s).disk = s.disk := by
  cases onConsole with
  | false => rfl
  | true =>
    change (receive now r s (.console level)).disk = s.disk
    unfold receive
    split <;> rfl

/-- **A step.** A record that reaches the level of the log adds its line to the file. -/
theorem find_write_toFile (hfind : s.disk.find path = .ok (.file before))
    (hr : (toFile path level onConsole).isEnabled r = true) :
    ((toFile path level onConsole).write now s r).disk.find path
      = .ok (.file (before ++ Utf8.encodeAll (r.fileLine now ++ "\n"))) := by
  obtain ⟨d, happend, hd⟩ :=
    Disk.append_of_find hfind (Utf8.encodeAll (r.fileLine now ++ "\n"))
  have hlevel : ¬r.level < (Sink.file path level).level := not_lt.2 (of_decide_eq_true hr).2
  have hreceive : receive now r s (.file path level) = { s with disk := d } := by
    unfold receive
    rw [if_neg hlevel]
    dsimp only
    rw [happend]
  -- the file is the first of the sinks, and what the console receives does not change it
  unfold write
  rw [hr]
  change (List.foldl (receive now r) (receive now r s (.file path level)) _).disk.find path = _
  rw [hreceive, disk_foldl_console]
  exact hd

theorem encodeAll_logText_cons (e : Moment × LogRecord) (log : List (Moment × LogRecord)) :
    Utf8.encodeAll (logText (e :: log))
      = Utf8.encodeAll (e.2.fileLine e.1 ++ "\n") ++ Utf8.encodeAll (logText log) := by
  unfold logText Utf8.encodeAll
  rw [List.flatMap_cons, List.flatMap_append]

/-- **A run.** Records add the lines of those that are kept to the file. -/
theorem find_writeEach (hfind : s.disk.find path = .ok (.file before))
    (log : List (Moment × LogRecord)) :
    ((toFile path level onConsole).writeEach s log).disk.find path = .ok (.file (before
      ++ Utf8.encodeAll (logText ((toFile path level onConsole).kept log)))) := by
  induction log generalizing s before with
  | nil =>
    have hnil : Utf8.encodeAll (logText ((toFile path level onConsole).kept [])) = [] := rfl
    rw [hnil, List.append_nil]
    exact hfind
  | cons e log ih =>
    have hrun : (toFile path level onConsole).writeEach s (e :: log)
        = (toFile path level onConsole).writeEach
          ((toFile path level onConsole).write e.1 s e.2) log := rfl
    by_cases he : (toFile path level onConsole).isEnabled e.2 = true
    · -- the rest is added to what the file held at first and this line
      have hkept : (toFile path level onConsole).kept (e :: log)
          = e :: (toFile path level onConsole).kept log := List.filter_cons_of_pos he
      rw [hrun, ih (find_write_toFile hfind he), hkept, encodeAll_logText_cons, List.append_assoc]
    · have hkept : (toFile path level onConsole).kept (e :: log)
          = (toFile path level onConsole).kept log := List.filter_cons_of_neg he
      have hwrite : (toFile path level onConsole).write e.1 s e.2 = s := by
        unfold write
        exact if_pos (by simpa using he)
      rw [hrun, hwrite, ih hfind, hkept]

/-! ## Logs that were set up -/

/-- The report of a set-up. -/
def firstRecord (path : Text) : LogRecord :=
  ⟨.info, LogSource.root, "Logging initialized. Log file: " ++ path, none, []⟩

/-- A file that was opened can be read. -/
theorem exists_find_of_openFile (h : openFile d directory now = .ok d') :
    ∃ before, d'.find (filePath directory now) = .ok (.file before) := by
  unfold openFile at h
  cases hdirectory : d.ensureDirectory (Path.clean directory) with
  | error e =>
    rw [hdirectory] at h
    cases h
  | ok made =>
    rw [hdirectory] at h
    dsimp only [bind, Except.bind] at h
    cases happend : made.append (filePath directory now) [] with
    | error fault =>
      rw [happend] at h
      cases h
    | ok opened =>
      rw [happend] at h
      obtain ⟨before, hfind⟩ := Disk.exists_find_of_append happend
      cases h
      exact ⟨_, hfind⟩

/-- A log that was set up with a directory has a file, and its report was written to it. -/
theorem exists_of_setUp (hu : setUp (some directory) level onConsole now s = u)
    (houtcome : u.outcome = .ok (some path)) :
    ∃ d before, openFile s.disk directory now = .ok d ∧ d.find path = .ok (.file before)
      ∧ u.logging = toFile path level onConsole
      ∧ u.surroundings = (toFile path level onConsole).writeEach { s with disk := d }
        [(now, firstRecord path)] := by
  subst hu
  unfold setUp at houtcome ⊢
  dsimp only at houtcome ⊢
  cases hopen : openFile s.disk directory now with
  | error e =>
    rw [hopen] at houtcome
    cases houtcome
  | ok d =>
    rw [hopen] at houtcome
    obtain rfl : filePath directory now = path := Option.some.inj (Except.ok.inj houtcome)
    obtain ⟨before, hfind⟩ := exists_find_of_openFile hopen
    exact ⟨d, before, rfl, hfind, rfl, rfl⟩

/-- **One record on each line.** Records whose further fields are texts by name are told by a text
of lines, whatever they say. Let a log be set up with a directory. Then what is in its file after
the records were written is what was there when it was opened, and such a text of the records that
reach the level of the log, the report of the set-up first. -/
theorem log_framed (hlog : ∀ e ∈ log, e.2.HasTextFields) :
    IsFramed log (logText log)
      ∧ ∀ (directory : Text) (level : LogLevel) (onConsole : Bool) (now : Moment)
          (s : Surroundings) (path : Text) (u : SetUp),
        setUp (some directory) level onConsole now s = u → u.outcome = .ok (some path) →
        ∃ d before bytes text, openFile s.disk directory now = .ok d
          ∧ d.find path = .ok (.file before)
          ∧ (u.logging.writeEach u.surroundings log).disk.find path
              = .ok (.file (before ++ bytes))
          ∧ Utf8.decode bytes = .ok text
          ∧ IsFramed (u.logging.kept ((now, firstRecord path) :: log)) text := by
  refine ⟨isFramed_logText hlog, ?_⟩
  intro directory level onConsole now s path u hu houtcome
  obtain ⟨d, before, hopen, hfind, hlogging, hsurroundings⟩ := exists_of_setUp hu houtcome
  have hall : ∀ e ∈ (toFile path level onConsole).kept ((now, firstRecord path) :: log),
      e.2.HasTextFields := by
    intro e he
    rcases List.mem_cons.1 (List.mem_of_mem_filter he) with rfl | he
    · exact ⟨List.nodup_nil, List.forall_mem_nil _⟩
    · exact hlog e he
  refine ⟨d, before, _, _, hopen, hfind, ?_, decode_logText hall, ?_⟩
  · rw [hlogging, hsurroundings]
    exact find_writeEach hfind ((now, firstRecord path) :: log)
  · rw [hlogging]
    exact isFramed_logText hall

/-- A record whose message goes on with what looks like a record, and whose further field has the
name of an own one. -/
def forgery : LogRecord where
  level := .error
  source := "cli"
  message := Text.ofString "no\n\x7b\"level\": \"INFO\"\x7d"
    ++ [CodePoint.ofNat 0xD83D, CodePoint.ofNat 0xDE00]
  exception := some "KeyError: 'a'\r\n"
  extra := [("logger", .text "check")]

/-- It is made on a morning. -/
def forgedAt : Moment := ⟨⟨2025, 1, 2⟩, ⟨3, 4, 5, 0, none⟩⟩

/-- The log is set up on a disk with nothing on it. -/
def forgedSetUp : SetUp :=
  setUp (some "logs") .info false forgedAt ⟨.ofWorking ["work"], []⟩

/-- It stands on one line, with its own level and with the name that it was given, and in the file
after the report of the set-up. -/
theorem forgery_framed :
    (∀ e ∈ [(forgedAt, forgery)], e.2.HasTextFields)
      ∧ Text.splitOn '\n' (logText [(forgedAt, forgery)]) = [forgery.fileLine forgedAt, []]
      ∧ (∃ fields, Json.parse (forgery.fileLine forgedAt) = some (.object fields)
          ∧ (Json.object fields).field? "level" = some (.text "ERROR")
          ∧ (Json.object fields).field? "logger" = some (.text "check")
          ∧ (Json.object fields).field? "message" = some (.text
              (Text.ofString "no\n\x7b\"level\": \"INFO\"\x7d" ++ [CodePoint.ofNat 0x1F600])))
      ∧ ∃ path before bytes text, forgedSetUp.outcome = .ok (some path)
          ∧ (forgedSetUp.logging.writeEach forgedSetUp.surroundings
              [(forgedAt, forgery)]).disk.find path = .ok (.file (before ++ bytes))
          ∧ Utf8.decode bytes = .ok text
          ∧ IsFramed [(forgedAt, firstRecord path), (forgedAt, forgery)] text := by
  have hlog : ∀ e ∈ [(forgedAt, forgery)], e.2.HasTextFields :=
    List.forall_mem_singleton.2 ⟨by decide, List.forall_mem_singleton.2 ⟨_, rfl⟩⟩
  obtain ⟨hframed, hfile⟩ := log_framed hlog
  refine ⟨hlog, hframed.lines, ?_, ?_⟩
  · obtain ⟨fields, hparse, htold⟩ := hframed.told _ (List.mem_singleton_self _)
    refine ⟨fields, hparse, ?_, ?_, ?_⟩
    · exact htold.own ("level", "ERROR") (by decide) (by decide)
    · exact htold.merged "logger"
    · exact htold.own ("message", forgery.message) (by decide) (by decide)
  · have hsetUp : setUp (some "logs") .info false forgedAt ⟨.ofWorking ["work"], []⟩
        = forgedSetUp := by
      unfold forgedSetUp
      exact Eq.refl _
    have houtcome : forgedSetUp.outcome
        = .ok (some (Text.ofString "logs/check_deps_20250102.log")) := by decide +kernel
    obtain ⟨_, before, bytes, text, -, -, hfind, hdecode, hframed⟩ :=
      hfile _ _ _ _ _ _ _ hsetUp houtcome
    obtain ⟨_, _, -, -, hlogging, -⟩ := exists_of_setUp hsetUp houtcome
    have hkept : ∀ e ∈ [(forgedAt, firstRecord "logs/check_deps_20250102.log"),
        (forgedAt, forgery)],
        (toFile "logs/check_deps_20250102.log" .info false).isEnabled e.2 = true :=
      List.forall_mem_cons.2 ⟨by decide, List.forall_mem_singleton.2 (by decide)⟩
    rw [hlogging, kept, List.filter_eq_self.2 hkept] at hframed
    exact ⟨_, before, bytes, text, houtcome, hfind, hdecode, hframed⟩

end ImportClosure.Logging
