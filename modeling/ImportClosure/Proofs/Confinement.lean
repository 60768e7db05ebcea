import ImportClosure.Proofs.Course
/-!
Properties of all paths of a run.

The paths that a run deals with are those of the files that it finds, the candidates that lead
nowhere, and whatever it asks the storage for. They all come from the entry file by one kind of
step: from a file that is taken to its candidates, and from these to what is asked for. So a
property of paths that each such step hands on (`HandsOn`) is a property of every path in the
findings, in the queue, in the report and in the trace, at every moment (`ComesTo.isConfined`) and
at the end (`IsEntry.resolve_isConfined`). Nothing is assumed of the property.
-/

namespace ImportClosure

/-- The path that the storage is asked for, if the event is of that kind. -/
def Event.asked? : Event → Option Text
  | .asked path => some path
  | _ => none

variable {P : Text → Prop} {path : Text}

/-! ## Findings -/

/-- All paths in the report have the property. -/
structure FaultReport.IsConfined (P : Text → Prop) (r : FaultReport) : Prop where
  entrypoint : P r.entrypoint
  missing : ∀ path ∈ r.missing.keys, P path
  referrers : ∀ path refs, r.missing.get? path = some refs → ∀ referrer ∈ refs, P referrer
  unparsed : ∀ path ∈ r.unparsed.keys, P path
  unsupported : ∀ path ∈ r.unsupported.keys, P path

namespace Collector

/-- All paths in the findings have the property. -/
structure IsConfined (P : Text → Prop) (c : Collector) : Prop where
  files : ∀ path ∈ c.files.keys, P path
  report : c.faultReport.IsConfined P

variable {c : Collector}

theorem isConfined_start (content : Text) (hp : P path) : (start path content).IsConfined P where
  files := List.forall_mem_singleton.2 hp
  report := by
    refine ⟨hp, ?_, nofun, ?_, ?_⟩ <;> exact fun _ hmem => absurd hmem List.not_mem_nil

namespace IsConfined

theorem addFile (h : c.IsConfined P) (hp : P path) (content : Text) :
    (c.addFile path content).IsConfined P where
  files := by
    intro path' hpath'
    unfold Collector.addFile OrderedMap.insertIfNew at hpath'
    dsimp only at hpath'
    split at hpath'
    · exact h.files path' hpath'
    · rcases OrderedMap.mem_keys_insert.1 hpath' with rfl | hpath'
      · exact hp
      · exact h.files path' hpath'
  report := h.report

theorem addUnparsed (h : c.IsConfined P) (hp : P path) (reason : Text) :
    (c.addUnparsed path reason).IsConfined P where
  files := h.files
  report := { h.report with
    unparsed := by
      intro path' hpath'
      rcases OrderedMap.mem_keys_insert.1 hpath' with rfl | hpath'
      · exact hp
      · exact h.report.unparsed path' hpath' }

theorem addUnsupported (h : c.IsConfined P) (hp : P path) (names : List Text) :
    (c.addUnsupported path names).IsConfined P := by
  unfold Collector.addUnsupported
  split
  · exact h
  · refine ⟨h.files, { h.report with unsupported := ?_ }⟩
    intro path' hpath'
    rcases OrderedMap.mem_keys_insert.1 hpath' with rfl | hpath'
    · exact hp
    · exact h.report.unsupported path' hpath'

theorem addMissing {referrer : Text} (h : c.IsConfined P) (hp : P path) (hr : P referrer) :
    (c.addMissing path (some referrer)).IsConfined P where
  files := h.files
  report := { h.report with
    missing := by
      intro path' hpath'
      rcases OrderedMap.mem_keys_insert.1 hpath' with rfl | hpath'
      · exact hp
      · exact h.report.missing path' hpath'
    referrers := by
      intro path' refs hget
      unfold Collector.addMissing faultReport at hget
      dsimp only at hget
      rw [OrderedMap.get?_insert] at hget
      split at hget
      · -- the referrers known before, and the one that is added unless it is known
        rw [← Option.some.inj hget]
        have hknown : ∀ q ∈ (c.missing.get? path).getD [], P q := by
          cases hold : c.missing.get? path with
          | none => exact fun _ hq => absurd hq List.not_mem_nil
          | some known => exact h.report.referrers path known hold
        intro q hq
        unfold appendNew at hq
        simp only [Option.toList_some, List.foldl_cons, List.foldl_nil] at hq
        split at hq
        · exact hknown q hq
        · rcases List.mem_append.1 hq with hq | hq
          · exact hknown q hq
          · rw [List.mem_singleton.1 hq]
            exact hr
      · exact h.report.referrers path' refs hget }

end IsConfined

end Collector

namespace Resolution

variable {s : Settings} {r : Reader} {e f file : SourceFile} {entrypoint : Text} {v : Variant}
variable {m : Specifiers} {w w' : Walk} {rest : List SourceFile} {x : Resolution}

/-! ## Paths asked for -/

/-- The paths that the storage was asked for, in order. -/
def askedPaths (trace : List Event) : List Text := trace.filterMap Event.asked?

theorem askedPaths_append (t t' : List Event) :
    askedPaths (t ++ t') = askedPaths t ++ askedPaths t' :=
  List.filterMap_append

theorem askedPaths_lookupTrace (paths : List Text) :
    askedPaths (lookupTrace r paths) = Candidate.asked r paths := by
  induction paths with
  | nil => rfl
  | cons path paths ih =>
    unfold lookupTrace Candidate.asked Candidate.readable?
    cases r.read path with
    | ok content => rfl
    | error why => exact congrArg (path :: ·) ih

theorem mem_askedPaths_flatMap {cs : List Text} {q : Text} :
    q ∈ askedPaths (cs.flatMap fun c => lookupTrace r (Candidate.attempts v c))
      ↔ ∃ c ∈ cs, q ∈ Candidate.asked r (Candidate.attempts v c) := by
  simp only [← askedPaths_lookupTrace]
  unfold askedPaths
  rw [List.filterMap_flatMap, List.mem_flatMap]

/-- What is asked for on account of the file has the property. -/
def HandsOn (s : Settings) (r : Reader) (P : Text → Prop) (f : SourceFile) : Prop :=
  ∀ v m, Parses s f v m → ∀ c ∈ candidates f.path m,
    P c ∧ ∀ q ∈ Candidate.asked r (Candidate.attempts v c), P q

/-- All paths that a file contributes have the property. -/
structure Examination.IsConfined (P : Text → Prop) (x : Examination) : Prop where
  missing : ∀ path ∈ x.missing, P path
  found : ∀ f ∈ x.found, P f.path
  asked : ∀ path ∈ askedPaths x.trace, P path

theorem accepted_isConfined (h : HandsOn s r P f) (hp : Parses s f v m) :
    (Examination.accepted s r f.path v m [.extracting f.path v]).IsConfined P where
  missing := fun c hc => (h v m hp c (List.mem_filter.1 hc).1).1
  found := by
    intro g hg
    obtain ⟨c, hc, hfind⟩ := List.mem_filterMap.1 hg
    exact (h v m hp c hc).2 _ (Candidate.path_mem_asked_of_find? hfind)
  asked := by
    intro q hq
    unfold Examination.accepted at hq
    rw [askedPaths_append] at hq
    obtain ⟨c, hc, hasked⟩ := mem_askedPaths_flatMap.1 hq
    exact (h v m hp c hc).2 q hasked

theorem examine_isConfined {y : Examination} (h : HandsOn s r P f)
    (hx : examine s r f = .ok y) : y.IsConfined P := by
  rcases parses_or_rejects_or s r f with ⟨v, m, hp⟩ | ⟨reason, hrejects⟩ | ⟨why, hwhy⟩
  · rw [examine_of_parses hp] at hx
    rw [← Except.ok.inj hx]
    exact accepted_isConfined h hp
  · rw [examine_of_rejects hrejects] at hx
    rw [← Except.ok.inj hx]
    -- the extractor was called at most, but the storage was not
    refine ⟨nofun, nofun, ?_⟩
    unfold Examination.refused
    cases f.variant <;> exact nofun
  · rw [hwhy] at hx
    exact absurd hx nofun

theorem record_isConfined {c : Collector} {y : Examination} {path : Text} (hc : c.IsConfined P)
    (hp : P path) (hy : y.IsConfined P) : (record path y c).IsConfined P := by
  have hfold : ∀ (paths : List Text) (c : Collector), c.IsConfined P → (∀ q ∈ paths, P q) →
      (paths.foldl (fun c q => c.addMissing q (some path)) c).IsConfined P := by
    intro paths
    induction paths with
    | nil => exact fun _ hc _ => hc
    | cons q paths ih =>
      intro c hc hpaths
      obtain ⟨hq, hqs⟩ := List.forall_mem_cons.1 hpaths
      exact ih _ (hc.addMissing hq hp) hqs
  unfold record
  refine hfold _ _ ?_ hy.missing
  cases y.fault <;> dsimp only <;> split
  · exact hc
  · exact hc.addUnsupported hp _
  · exact hc.addUnparsed hp _
  · exact (hc.addUnparsed hp _).addUnsupported hp _

/-! ## One round -/

/-- All paths that a walk has dealt with have the property. -/
structure Walk.IsConfined (P : Text → Prop) (w : Walk) : Prop where
  findings : w.findings.IsConfined P
  queue : ∀ f ∈ w.queue, P f.path
  asked : ∀ path ∈ askedPaths w.trace, P path

theorem enqueue_isConfined {limit : Int} {found : List SourceFile} (hw : w.IsConfined P)
    (hf : ∀ f ∈ found, P f.path) (h : enqueue limit found w = .ok w') : w'.IsConfined P := by
  -- each new file joins the findings and the queue, so the walk varies in the induction
  induction found generalizing w with
  | nil =>
    obtain rfl : w = w' := Except.ok.inj h
    exact hw
  | cons f found ih =>
    obtain ⟨hp, hps⟩ := List.forall_mem_cons.1 hf
    unfold enqueue at h
    split at h
    · exact ih hw hps h
    · dsimp only at h
      split at h
      · cases h
      · have hadded : Walk.IsConfined P
            ⟨w.findings.addFile f.path f.content, w.queue ++ [f], w.trace⟩ :=
          ⟨hw.findings.addFile hp f.content,
            List.forall_mem_append.2 ⟨hw.queue, List.forall_mem_singleton.2 hp⟩, hw.asked⟩
        exact ih hadded hps h

theorem Walk.IsConfined.asked_append {y : Examination} (hw : w.IsConfined P)
    (hy : y.IsConfined P) : ∀ path ∈ askedPaths (w.trace ++ y.trace), P path := by
  rw [askedPaths_append]
  exact List.forall_mem_append.2 ⟨hw.asked, hy.asked⟩

theorem step_isConfined (hw : w.IsConfined P) (hq : w.queue = file :: rest)
    (h : HandsOn s r P file) (hstep : step s r w file rest = .ok w') : w'.IsConfined P := by
  have hqueue := hw.queue
  rw [hq] at hqueue
  obtain ⟨hfile, hrest⟩ := List.forall_mem_cons.1 hqueue
  obtain ⟨y, hx, hqueued⟩ := exists_of_step_eq_ok hstep
  have hy := examine_isConfined h hx
  exact enqueue_isConfined
    ⟨record_isConfined hw.findings hfile hy, hrest, hw.asked_append hy⟩ hy.found hqueued

/-- A round that fails has asked for such paths only. -/
theorem stop_isConfined {stop : Stop} (hw : w.IsConfined P) (h : HandsOn s r P file)
    (hstep : step s r w file rest = .error stop) : ∀ path ∈ askedPaths stop.trace, P path := by
  rcases exists_of_step_eq_error hstep with ⟨why, _, rfl⟩ | ⟨y, failure, hx, _, rfl⟩
  · dsimp only
    rw [askedPaths_append]
    refine List.forall_mem_append.2 ⟨hw.asked, ?_⟩
    -- the extractor was called, but the storage was not
    cases file.variant <;> exact nofun
  · exact hw.asked_append (examine_isConfined h hx)

/-! ## Whole runs -/

/-- All paths that a run has come to and asked for have the property. -/
structure IsConfined (P : Text → Prop) (x : Resolution) : Prop where
  asked : ∀ path ∈ askedPaths x.trace, P path
  files : ∀ files, x.outcome = .ok files → ∀ path ∈ files.keys, P path
  report : ∀ report, x.outcome = .error (.reported (.faulty report)) → report.IsConfined P

theorem start_isConfined (hp : P e.path) : (start e).IsConfined P where
  findings := Collector.isConfined_start e.content hp
  queue := List.forall_mem_singleton.2 hp
  asked := List.forall_mem_singleton.2 hp

/-- **Confinement.** What every file taken hands on holds of all paths, at every moment. -/
theorem ComesTo.isConfined (hp : P e.path)
    (hfiles : ∀ f, Takes s r e f → P f.path → HandsOn s r P f) (h : ComesTo s r (start e) w) :
    w.IsConfined P := by
  induction h with
  | refl => exact start_isConfined hp
  | tail hcomes hround ih =>
    obtain ⟨file, rest, hq, hstep⟩ := hround
    have htakes : Takes s r e file := ⟨_, hcomes, by rw [hq]; rfl⟩
    have hpath : P file.path := ih.queue file (by rw [hq]; exact List.mem_cons_self)
    exact step_isConfined ih hq (hfiles file htakes hpath) hstep

theorem finish_isConfined (hw : w.IsConfined P) : (finish w).IsConfined P := by
  unfold finish Collector.validate
  split
  · rename_i hvalid
    split at hvalid
    · rw [← Except.error.inj hvalid]
      refine ⟨hw.asked, nofun, ?_⟩
      intro report hreport
      rw [← faulty_inj hreport]
      exact hw.findings.report
    · exact absurd hvalid nofun
  · refine ⟨?_, ?_, nofun⟩
    · rw [askedPaths_append]
      exact List.forall_mem_append.2 ⟨hw.asked, nofun⟩
    · intro files hfiles
      rw [← Except.ok.inj hfiles]
      exact hw.findings.files

/-- What every file taken hands on holds of all paths at the end, wherever the run stops. -/
theorem Stops.isConfined (hp : P e.path)
    (hfiles : ∀ f, Takes s r e f → P f.path → HandsOn s r P f) (hcomes : ComesTo s r (start e) w)
    (h : Stops s r w x) : x.IsConfined P := by
  have hw := hcomes.isConfined hp hfiles
  cases h with
  | drained _ => exact finish_isConfined hw
  | @failed file rest stop hq hstep =>
    have htakes : Takes s r e file := ⟨_, hcomes, by rw [hq]; rfl⟩
    have hpath : P file.path := hw.queue file (by rw [hq]; exact List.mem_cons_self)
    refine ⟨stop_isConfined hw (hfiles file htakes hpath) hstep, nofun, ?_⟩
    exact fun report hreport =>
      absurd (Except.error.inj hreport) (step_failure_ne_faulty hstep report)
  | unfinished _ => exact ⟨hw.asked, nofun, nofun⟩

/-- It holds of all paths however many rounds a run is given. -/
theorem run_isConfined (hp : P e.path)
    (hfiles : ∀ f, Takes s r e f → P f.path → HandsOn s r P f) (n : Nat) :
    (run s r n (start e)).IsConfined P := by
  obtain ⟨w, hcomes, hstops⟩ := exists_stops s r n (start e)
  exact hstops.isConfined hp hfiles hcomes

theorem IsEntry.resolve_isConfined (he : IsEntry r entrypoint e) (hp : P e.path)
    (hfiles : ∀ f, Takes s r e f → P f.path → HandsOn s r P f) :
    (resolve s r entrypoint).IsConfined P := by
  rw [he.resolve_eq]
  exact run_isConfined hp hfiles r.paths.length

/-- Where there is no entry file, the run has asked for the entrypoint at most. -/
theorem isConfined_of_not_isEntry (h : ∀ e, ¬ IsEntry r entrypoint e)
    (hp : P (Path.normalize entrypoint)) : (resolve s r entrypoint).IsConfined P := by
  rcases isEntry_or_refused s r entrypoint with ⟨e, he⟩ | ⟨_, heq⟩ | ⟨_, _, _, _, heq⟩
  · exact absurd he (h e)
  · rw [heq]
    exact ⟨nofun, nofun, nofun⟩
  · rw [heq]
    exact ⟨List.forall_mem_singleton.2 hp, nofun, nofun⟩

end Resolution

end ImportClosure
