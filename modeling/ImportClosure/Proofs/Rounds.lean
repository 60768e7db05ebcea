import ImportClosure.Proofs.Closure
/-!
The rounds of the loop.

`run` bounds the number of rounds in advance. `Loop` is the loop without a bound: it goes on until
the queue is empty or a round fails, and it keeps an account of the files that are taken from the
queue and of those that are added to it. A derivation of `Loop` is a loop that has ended, and over
a finite storage there always is one (`resolve_terminates`).

A file is queued only when it is stored for the first time, so no path is queued twice, and since
the queue gives out what was put in, none is taken or read for specifiers twice. All of these are
paths that the storage can read, which bounds the number of rounds.
-/

namespace ImportClosure

/-- The path whose specifiers are asked for, if the event is of that kind. -/
def Event.extraction? : Event → Option Text
  | .extracting path _ => some path
  | _ => none

namespace Resolution

variable {s : Settings} {r : Reader} {e f file : SourceFile} {entrypoint : Text}
variable {w w' last : Walk} {rest taken queued : List SourceFile} {x : Resolution}

/-! ## Files that are queued -/

/-- The files that are queued when these are found: those not visited before, up to the one that
exceeds the limit. -/
def queuedOf (limit : Int) : List SourceFile → Collector → List SourceFile
  | [], _ => []
  | f :: fs, c =>
    if c.hasFile f.path then queuedOf limit fs c
    else if exceeds limit (c.addFile f.path f.content).size then []
    else f :: queuedOf limit fs (c.addFile f.path f.content)

theorem keys_addFile {c : Collector} (h : ¬ c.hasFile f.path = true) :
    (c.addFile f.path f.content).files.keys = c.files.keys ++ [f.path] := by
  have hnew : f.path ∉ c.files.keys := fun hm => h (OrderedMap.contains_iff.2 hm)
  unfold Collector.addFile
  rw [OrderedMap.insertIfNew_of_not_mem hnew, OrderedMap.keys_insert_of_not_mem hnew]

theorem queuedOf_subset {limit : Int} {found : List SourceFile} {c : Collector} :
    queuedOf limit found c ⊆ found := by
  induction found generalizing c with
  | nil => exact List.Subset.refl []
  | cons f found ih =>
    unfold queuedOf
    split
    · exact List.subset_cons_of_subset f ih
    · split
      · exact List.nil_subset _
      · exact List.cons_subset_cons f ih

/-- No path is queued that was visited before, and none is queued twice. -/
theorem nodup_queuedOf (limit : Int) (found : List SourceFile) (c : Collector) :
    (c.files.keys ++ (queuedOf limit found c).map SourceFile.path).Nodup := by
  have hnone : ∀ c : Collector, (c.files.keys ++ [].map SourceFile.path).Nodup := by
    intro c
    rw [List.map_nil, List.append_nil]
    exact c.files.nodup_keys
  induction found generalizing c with
  | nil => exact hnone c
  | cons f found ih =>
    unfold queuedOf
    split
    · exact ih c
    · rename_i hnew
      split
      · exact hnone c
      · have hrest := ih (c.addFile f.path f.content)
        rwa [keys_addFile hnew, List.append_assoc] at hrest

/-- What queueing files does, if they are not too many. -/
theorem enqueue_eq_ok {limit : Int} {found : List SourceFile}
    (h : enqueue limit found w = .ok w') :
    w'.queue = w.queue ++ queuedOf limit found w.findings
      ∧ w'.findings.files.keys
        = w.findings.files.keys ++ (queuedOf limit found w.findings).map SourceFile.path
      ∧ w'.trace = w.trace := by
  induction found generalizing w with
  | nil =>
    obtain rfl : w = w' := Except.ok.inj h
    unfold queuedOf
    rw [List.append_nil, List.map_nil, List.append_nil]
    exact ⟨rfl, rfl, rfl⟩
  | cons f found ih =>
    unfold enqueue at h
    unfold queuedOf
    by_cases hvisited : w.findings.hasFile f.path = true
    · rw [if_pos hvisited] at h ⊢
      exact ih h
    · rw [if_neg hvisited] at h ⊢
      dsimp only at h
      by_cases hover : exceeds limit (w.findings.addFile f.path f.content).size = true
      · rw [if_pos hover] at h
        cases h
      · rw [if_neg hover] at h ⊢
        obtain ⟨hqueue, hkeys, htrace⟩ := ih h
        rw [List.append_assoc] at hqueue
        rw [keys_addFile hvisited, List.append_assoc] at hkeys
        exact ⟨hqueue, hkeys, htrace⟩

theorem enqueue_eq_error {limit : Int} {found : List SourceFile} {failure : Failure}
    (h : enqueue limit found w = .error failure) :
    ∃ path, failure = .reported (.limitExceeded path limit) := by
  induction found generalizing w with
  | nil => exact absurd h nofun
  | cons f found ih =>
    unfold enqueue at h
    split at h
    · exact ih h
    · dsimp only at h
      split at h
      · exact ⟨_, (Except.error.inj h).symm⟩
      · exact ih h

/-! ## Files whose specifiers are asked for -/

/-- The paths whose specifiers were asked for, in order. -/
def extractions (trace : List Event) : List Text := trace.filterMap Event.extraction?

/-- The paths of those files that are written in some grammar. -/
def grammarPaths (files : List SourceFile) : List Text :=
  (files.filter fun f => f.variant.isSome).map SourceFile.path

theorem extractions_append (t t' : List Event) :
    extractions (t ++ t') = extractions t ++ extractions t' :=
  List.filterMap_append

theorem grammarPaths_cons (f : SourceFile) (files : List SourceFile) :
    grammarPaths (f :: files) = grammarPaths [f] ++ grammarPaths files := by
  unfold grammarPaths
  rw [← List.map_append, ← List.filter_append, List.singleton_append]

theorem grammarPaths_singleton (f : SourceFile) :
    grammarPaths [f] = (f.variant.toList.map fun _ => f.path) := by
  unfold grammarPaths
  cases hv : f.variant <;> simp [hv]

/-- Looking a candidate up asks for no specifiers. -/
theorem extractions_lookupTrace (paths : List Text) : extractions (lookupTrace r paths) = [] := by
  induction paths with
  | nil => rfl
  | cons path paths ih =>
    unfold lookupTrace
    split
    · rfl
    · exact ih

theorem extractions_flatMap_lookupTrace (r : Reader) (v : Variant) (cs : List Text) :
    extractions (cs.flatMap fun c => lookupTrace r (Candidate.attempts v c)) = [] := by
  induction cs with
  | nil => rfl
  | cons c cs ih =>
    rw [List.flatMap_cons, extractions_append, extractions_lookupTrace, ih, List.append_nil]

/-- The specifiers of a file are asked for once, unless its extension tells no grammar. -/
theorem extractions_examine {y : Examination} (h : examine s r file = .ok y) :
    extractions y.trace = grammarPaths [file] := by
  rw [grammarPaths_singleton]
  rcases parses_or_rejects_or s r file with ⟨v, m, hp⟩ | ⟨reason, hrejects⟩ | ⟨why, hwhy⟩
  · rw [examine_of_parses hp] at h
    rw [← Except.ok.inj h, hp.1]
    unfold Examination.accepted
    rw [extractions_append, extractions_flatMap_lookupTrace]
    rfl
  · rw [examine_of_rejects hrejects] at h
    rw [← Except.ok.inj h]
    unfold Examination.refused
    cases file.variant <;> rfl
  · rw [hwhy] at h
    exact absurd h nofun

/-! ## One round -/

/-- The files that a round queues. -/
def queuedBy (s : Settings) (r : Reader) (w : Walk) (file : SourceFile) : List SourceFile :=
  queuedOf s.maxFiles (examined s r file).found
    (record file.path (examined s r file) w.findings)

/-- What a round that succeeds does. -/
theorem exists_of_step_eq_ok (h : step s r w file rest = .ok w') :
    ∃ y, examine s r file = .ok y ∧ enqueue s.maxFiles y.found
      ⟨record file.path y w.findings, rest, w.trace ++ y.trace⟩ = .ok w' := by
  unfold step at h
  cases hx : examine s r file with
  | error why =>
    rw [hx] at h
    exact absurd h nofun
  | ok y =>
    rw [hx] at h
    dsimp only at h
    refine ⟨y, rfl, ?_⟩
    split at h
    · exact absurd h nofun
    · rename_i hq
      rw [hq, ← Except.ok.inj h]

/-- What a round that fails does. -/
theorem exists_of_step_eq_error {stop : Stop} (h : step s r w file rest = .error stop) :
    (∃ why, examine s r file = .error why ∧ stop = ⟨.unencodable why,
        w.trace ++ file.variant.toList.map (.extracting file.path ·)⟩)
      ∨ ∃ y failure, examine s r file = .ok y
        ∧ enqueue s.maxFiles y.found ⟨record file.path y w.findings, rest, w.trace ++ y.trace⟩
          = .error failure
        ∧ stop = ⟨failure, w.trace ++ y.trace⟩ := by
  unfold step at h
  cases hx : examine s r file with
  | error why =>
    rw [hx] at h
    exact Or.inl ⟨why, rfl, (Except.error.inj h).symm⟩
  | ok y =>
    rw [hx] at h
    dsimp only at h
    refine Or.inr ⟨y, ?_⟩
    split at h
    · rename_i failure hq
      exact ⟨failure, rfl, hq, (Except.error.inj h).symm⟩
    · exact absurd h nofun

/-- A round that succeeds takes the file and queues what is new. -/
theorem step_eq_ok (h : step s r w file rest = .ok w') :
    w'.queue = rest ++ queuedBy s r w file
      ∧ w'.findings.files.keys
        = w.findings.files.keys ++ (queuedBy s r w file).map SourceFile.path
      ∧ extractions w'.trace = extractions w.trace ++ grammarPaths [file] := by
  obtain ⟨y, hx, hq⟩ := exists_of_step_eq_ok h
  obtain ⟨hqueue, hkeys, htrace⟩ := enqueue_eq_ok hq
  dsimp only at hqueue hkeys htrace
  unfold queuedBy
  rw [examined_of_ok hx]
  refine ⟨hqueue, ?_, ?_⟩
  · rw [hkeys, record_files]
  · rw [htrace, extractions_append, extractions_examine hx]

/-- A round fails for the limit, or because of a text that cannot be handed to the extractor. -/
theorem step_eq_error {stop : Stop} (h : step s r w file rest = .error stop) :
    ((∃ path, stop.failure = .reported (.limitExceeded path s.maxFiles))
        ∨ ∃ why, stop.failure = .unencodable why ∧ examine s r file = .error why)
      ∧ extractions stop.trace = extractions w.trace ++ grammarPaths [file] := by
  rcases exists_of_step_eq_error h with ⟨why, hx, rfl⟩ | ⟨y, failure, hx, hq, rfl⟩
  · refine ⟨Or.inr ⟨why, rfl, hx⟩, ?_⟩
    rw [grammarPaths_singleton]
    dsimp only
    rw [extractions_append]
    cases file.variant <;> rfl
  · refine ⟨Or.inl (enqueue_eq_error hq), ?_⟩
    rw [extractions_append, extractions_examine hx]

/-- No round fails for the faults found. -/
theorem step_failure_ne_faulty {stop : Stop} (h : step s r w file rest = .error stop)
    (report : FaultReport) : stop.failure ≠ .reported (.faulty report) := by
  rcases (step_eq_error h).1 with ⟨path, hlimit⟩ | ⟨why, hwhy, _⟩
  · rw [hlimit]
    exact nofun
  · rw [hwhy]
    exact nofun

/-- What a round queues is imported by the file taken. -/
theorem imports_of_mem_queuedBy (h : f ∈ queuedBy s r w file) : Imports s r file f := by
  rw [← mem_importedFiles, ← examined_found]
  exact queuedOf_subset h

theorem nodup_queuedBy (s : Settings) (r : Reader) (w : Walk) (file : SourceFile) :
    (w.findings.files.keys ++ (queuedBy s r w file).map SourceFile.path).Nodup := by
  have h := nodup_queuedOf s.maxFiles (examined s r file).found
    (record file.path (examined s r file) w.findings)
  rwa [record_files] at h

/-! ## The loop -/

/-- The loop from a walk on, until it ends: the files taken from the queue, the files added to it,
the last walk whose rounds have all succeeded, and what the loop comes to. -/
inductive Loop (s : Settings) (r : Reader) :
    Walk → List SourceFile → List SourceFile → Walk → Resolution → Prop
  /-- The queue is empty. -/
  | drained {w : Walk} (hq : w.queue = []) : Loop s r w [] [] w (finish w)
  /-- The next round fails. -/
  | stopped {w : Walk} {file : SourceFile} {rest : List SourceFile} {stop : Stop}
      (hq : w.queue = file :: rest) (hstep : step s r w file rest = .error stop) :
    Loop s r w [file] (queuedBy s r w file) w ⟨.error stop.failure, stop.trace⟩
  /-- The next round succeeds, and the loop goes on. -/
  | round {w w' last : Walk} {file : SourceFile} {rest taken queued : List SourceFile}
      {x : Resolution} (hq : w.queue = file :: rest) (hstep : step s r w file rest = .ok w')
      (h : Loop s r w' taken queued last x) :
    Loop s r w (file :: taken) (queuedBy s r w file ++ queued) last x

/-- With rounds enough, the bounded loop comes to what the loop comes to. -/
theorem Loop.run_eq (h : Loop s r w taken queued last x) {n : Nat} (hn : taken.length ≤ n) :
    run s r n w = x := by
  induction h generalizing n with
  | drained hq => exact run_of_nil hq
  | stopped hq hstep =>
    obtain ⟨n, rfl⟩ := Nat.exists_eq_add_of_le' hn
    rw [List.length_singleton, run_succ_of_cons hq, hstep]
  | round hq hstep _ ih =>
    obtain ⟨n, rfl⟩ := Nat.exists_eq_add_of_le' hn
    rw [List.length_cons, ← Nat.add_assoc, run_succ_of_cons hq, hstep]
    exact ih (Nat.le_add_left _ _)

/-- The loop comes to one end. -/
theorem Loop.unique {taken' queued' : List SourceFile} {last' : Walk} {x' : Resolution}
    (h : Loop s r w taken queued last x) (h' : Loop s r w taken' queued' last' x') : x = x' :=
  (h.run_eq (Nat.le_max_left _ _)).symm.trans (h'.run_eq (Nat.le_max_right _ _))

/-- A bounded loop that does not run out of rounds is the loop. -/
theorem exists_loop (s : Settings) (r : Reader) (n : Nat) (w : Walk) :
    (run s r n w).outcome = .error .unfinished
      ∨ ∃ taken queued last, Loop s r w taken queued last (run s r n w) := by
  induction n generalizing w with
  | zero =>
    cases hq : w.queue with
    | nil =>
      rw [run_of_nil hq]
      exact Or.inr ⟨_, _, _, Loop.drained hq⟩
    | cons file rest =>
      rw [run_zero_of_cons hq]
      exact Or.inl rfl
  | succ n ih =>
    cases hq : w.queue with
    | nil =>
      rw [run_of_nil hq]
      exact Or.inr ⟨_, _, _, Loop.drained hq⟩
    | cons file rest =>
      rw [run_succ_of_cons hq]
      cases hstep : step s r w file rest with
      | error stop => exact Or.inr ⟨_, _, _, Loop.stopped hq hstep⟩
      | ok w' =>
        rcases ih w' with hout | ⟨taken, queued, last, h⟩
        · exact Or.inl hout
        · exact Or.inr ⟨_, _, _, Loop.round hq hstep h⟩

namespace Loop

/-- The queue gives out what was put in, in this order. -/
theorem taken_prefix (h : Loop s r w taken queued last x) : taken <+: w.queue ++ queued := by
  induction h with
  | drained _ => exact List.nil_prefix
  | stopped hq _ =>
    rw [hq]
    exact ⟨_, rfl⟩
  | round hq hstep _ ih =>
    rw [(step_eq_ok hstep).1, List.append_assoc] at ih
    rw [hq, List.cons_append]
    exact List.prefix_cons_inj _ |>.2 ih

/-- No path is queued that was visited before, and none is queued twice. -/
theorem nodup_queued (h : Loop s r w taken queued last x) :
    (w.findings.files.keys ++ queued.map SourceFile.path).Nodup := by
  induction h with
  | @drained w _ =>
    rw [List.map_nil, List.append_nil]
    exact OrderedMap.nodup_keys _
  | stopped _ _ => exact nodup_queuedBy s r _ _
  | round _ hstep _ ih =>
    rw [(step_eq_ok hstep).2.1, List.append_assoc, ← List.map_append] at ih
    exact ih

/-- What is queued is imported by some file. -/
theorem exists_imports (h : Loop s r w taken queued last x) (hf : f ∈ queued) :
    ∃ g, Imports s r g f := by
  induction h with
  | drained _ => exact absurd hf List.not_mem_nil
  | stopped _ _ => exact ⟨_, imports_of_mem_queuedBy hf⟩
  | round _ _ _ ih =>
    rcases List.mem_append.1 hf with hf | hf
    · exact ⟨_, imports_of_mem_queuedBy hf⟩
    · exact ih hf

/-- Specifiers are asked for of the files taken, in this order. -/
theorem extractions_eq (h : Loop s r w taken queued last x) :
    extractions x.trace = extractions w.trace ++ grammarPaths taken := by
  induction h with
  | @drained w _ =>
    unfold finish
    cases w.findings.validate with
    | error failure => exact (List.append_nil _).symm
    | ok _ => exact extractions_append _ _
  | stopped _ hstep => exact (step_eq_error hstep).2
  | @round w w' last file rest taken queued x _ hstep _ ih =>
    rw [ih, (step_eq_ok hstep).2.2, List.append_assoc, ← grammarPaths_cons]

/-- A loop that does not fail takes all that was queued, and these are the files visited. -/
theorem complete_or_failed (h : Loop s r w taken queued last x) :
    (taken = w.queue ++ queued ∧ last.queue = [] ∧ x = finish last
        ∧ last.findings.files.keys = w.findings.files.keys ++ queued.map SourceFile.path)
      ∨ (∃ path, x.outcome = .error (.reported (.limitExceeded path s.maxFiles)))
      ∨ ∃ why f, x.outcome = .error (.unencodable why) ∧ examine s r f = .error why := by
  induction h with
  | drained hq =>
    refine Or.inl ⟨?_, hq, rfl, ?_⟩
    · rw [hq, List.append_nil]
    · rw [List.map_nil, List.append_nil]
  | stopped _ hstep =>
    rcases (step_eq_error hstep).1 with ⟨path, hfailure⟩ | ⟨why, hfailure, hx⟩
    · exact Or.inr (Or.inl ⟨path, congrArg _ hfailure⟩)
    · exact Or.inr (Or.inr ⟨why, _, congrArg _ hfailure, hx⟩)
  | round hq hstep _ ih =>
    refine ih.imp_left ?_
    rintro ⟨htaken, hempty, hx, hkeys⟩
    obtain ⟨hqueue, hkeys', _⟩ := step_eq_ok hstep
    refine ⟨?_, hempty, hx, ?_⟩
    · rw [htaken, hqueue, hq, List.cons_append, List.append_assoc]
    · rw [hkeys, hkeys', List.append_assoc, List.map_append]

/-- What holds of the walk at its start holds of the last walk. -/
theorem underway {done : List SourceFile} (he : Candidate.Stored r e)
    (hw : Underway s r e done w) (h : Loop s r w taken queued last x) :
    ∃ done, Underway s r e done last := by
  induction h generalizing done with
  | drained _ => exact ⟨done, hw⟩
  | stopped _ _ => exact ⟨done, hw⟩
  | round hq hstep _ ih =>
    rcases hw.step_cases he hq with ⟨w', hok, hw'⟩ | ⟨_, herror, _⟩ | ⟨_, _, herror, _⟩
    · rw [hstep] at hok
      obtain rfl := Except.ok.inj hok
      exact ih hw'
    · rw [hstep] at herror
      exact absurd herror nofun
    · rw [hstep] at herror
      exact absurd herror nofun

end Loop

end Resolution

end ImportClosure
