import ImportClosure.Proofs.Course
import ImportClosure.Proofs.ExactReport
import ImportClosure.Proofs.Termination
/-!
Providing more packages.

The packages that are provided decide what is reported about a file, and nothing else: which files
are found, in which order, and what else is wrong with them is found out without asking for them. So
a run under which more packages are provided is the run as it was, with the packages that are now
provided struck from its findings at every moment (`ComesTo.provide`), and what is left to say at the
end is what is left of the report (`resolve_provide`). A file of which no package is left is struck
altogether, and with the last fault the failure is gone.
-/

namespace ImportClosure

variable {allowed : List Text}

/-! ## What is still not provided -/

/-- Those of the packages that are not provided. -/
def lackingOf (allowed names : List Text) : List Text :=
  names.filter fun name => !allowed.contains name

/-- The packages reported for each file, without those that are provided; a file with none left is
not reported. -/
def OrderedMap.stillLacking (allowed : List Text) (m : OrderedMap Text (List Text)) :
    OrderedMap Text (List Text) where
  entries := (m.entries.map fun e => (e.1, lackingOf allowed e.2)).filter fun e => e.2 ≠ []
  nodup := by
    have hkeys : (m.entries.map fun e => (e.1, lackingOf allowed e.2)).map Prod.fst
        = m.entries.map Prod.fst := by
      rw [List.map_map]
      rfl
    exact (hkeys ▸ m.nodup).sublist (List.filter_sublist.map Prod.fst)

/-- The report, if these packages are provided. -/
def FaultReport.provide (allowed : List Text) (r : FaultReport) : FaultReport :=
  { r with unsupported := r.unsupported.stillLacking allowed }

/-- Nothing is reported. -/
def FaultReport.isEmpty (r : FaultReport) : Bool :=
  r.missing.isEmpty && r.unparsed.isEmpty && r.unsupported.isEmpty

/-- The findings, if these packages are provided. -/
def Collector.provide (allowed : List Text) (c : Collector) : Collector :=
  { c with unsupported := c.unsupported.stillLacking allowed }

/-- Where fewer packages were provided before, the packages lacking now are among those lacking
then. -/
theorem lackingOf_lackingOf {before : List Text} (h : before ⊆ allowed) (names : List Text) :
    lackingOf allowed (lackingOf before names) = lackingOf allowed names := by
  unfold lackingOf
  rw [List.filter_filter]
  refine List.filter_congr fun name _ => ?_
  by_cases hname : name ∈ before
  · simp [hname, h hname]
  · simp [hname]

namespace OrderedMap

variable {m : OrderedMap Text (List Text)} {path : Text} {names : List Text}

theorem keys_stillLacking_subset : (m.stillLacking allowed).keys ⊆ m.keys := by
  intro k hk
  obtain ⟨e, he, rfl⟩ := List.mem_map.1 hk
  obtain ⟨e', he', rfl⟩ := List.mem_map.1 (List.mem_filter.1 he).1
  exact List.mem_map.2 ⟨e', he', rfl⟩

/-- A new file is reported with what is left of its packages. -/
theorem stillLacking_insert (h : path ∉ m.keys) :
    (m.insert path names).stillLacking allowed
      = if lackingOf allowed names = [] then m.stillLacking allowed
        else (m.stillLacking allowed).insert path (lackingOf allowed names) := by
  apply ext_entries
  have hsplit : ((m.insert path names).stillLacking allowed).entries
      = (m.stillLacking allowed).entries
        ++ [(path, lackingOf allowed names)].filter fun e => e.2 ≠ [] := by
    unfold stillLacking
    dsimp only
    rw [entries_insert_of_not_mem h, List.map_append, List.filter_append]
    rfl
  rw [hsplit]
  by_cases hnone : lackingOf allowed names = []
  · rw [if_pos hnone, List.filter_cons_of_neg (by simp [hnone]), List.filter_nil, List.append_nil]
  · rw [if_neg hnone, List.filter_cons_of_pos (by simp [hnone]), List.filter_nil,
      entries_insert_of_not_mem fun hk => h (keys_stillLacking_subset hk)]

end OrderedMap

namespace Resolution

variable {s : Settings} {r : Reader} {e f file : SourceFile} {entrypoint : Text}
variable {w w' : Walk} {done rest : List SourceFile}

/-! ## One file -/

/-- What a file contributes, if these packages are provided. -/
def Examination.provide (allowed : List Text) (x : Examination) : Examination :=
  { x with unsupported := lackingOf allowed x.unsupported }

/-- Whether more packages are provided makes no other difference to what is found out. -/
theorem examine_provide (h : s.allowed ⊆ allowed) (f : SourceFile) :
    examine { s with allowed } r f = (examine s r f).map (Examination.provide allowed) := by
  rcases parses_or_rejects_or s r f with ⟨v, m, hp⟩ | ⟨reason, hrejects⟩ | ⟨why, hwhy⟩
  · have hp' : Parses { s with allowed } f v m := hp
    have hlacking := lackingOf_lackingOf h m.packages.toList
    rw [examine_of_parses hp, examine_of_parses hp']
    exact congrArg (fun names => Except.ok
      { Examination.accepted s r f.path v m [.extracting f.path v] with
        unsupported := names }) hlacking.symm
  · have hrejects' : Rejects { s with allowed } f reason := hrejects
    rw [examine_of_rejects hrejects, examine_of_rejects hrejects']
    rfl
  · obtain ⟨v, hv, hx⟩ := examine_eq_error_iff.1 hwhy
    rw [hwhy]
    exact examine_eq_error_iff.2 ⟨v, hv, hx⟩

theorem record_provide {path : Text} {x : Examination} {c : Collector}
    (hnames : x.unsupported.Nodup) (hpath : path ∉ c.unsupported.keys) :
    record path (x.provide allowed) (c.provide allowed) = (record path x c).provide allowed := by
  have hnames' : (x.provide allowed).unsupported.Nodup := hnames.filter _
  have hpath' : path ∉ (c.provide allowed).unsupported.keys :=
    fun hk => hpath (OrderedMap.keys_stillLacking_subset hk)
  rw [record_eq hnames hpath, record_eq hnames' hpath']
  by_cases hnone : x.unsupported = []
  · have hnone' : (x.provide allowed).unsupported = [] := by
      unfold Examination.provide lackingOf
      rw [hnone, List.filter_nil]
    rw [if_pos hnone, if_pos hnone']
    rfl
  · unfold Collector.provide
    dsimp only
    rw [if_neg hnone, OrderedMap.stillLacking_insert hpath]
    rfl

/-! ## One round -/

/-- The walk, if these packages are provided. -/
def Walk.provide (allowed : List Text) (w : Walk) : Walk :=
  { w with findings := w.findings.provide allowed }

/-- Files are stored and queued whatever is provided. -/
theorem enqueue_provide (limit : Int) (found : List SourceFile) (w : Walk) :
    enqueue limit found (w.provide allowed)
      = (enqueue limit found w).map (Walk.provide allowed) := by
  induction found generalizing w with
  | nil => rfl
  | cons f found ih =>
    have hvisited : (w.provide allowed).findings.hasFile f.path = w.findings.hasFile f.path := rfl
    have hsize : ((w.provide allowed).findings.addFile f.path f.content).size
        = (w.findings.addFile f.path f.content).size := rfl
    unfold enqueue
    dsimp only
    rw [hvisited, hsize]
    split
    · exact ih w
    · split
      · rfl
      · exact ih { w with
          findings := w.findings.addFile f.path f.content
          queue := w.queue ++ [f] }

/-- A file that is taken was not reported before. -/
theorem Underway.not_mem_unsupported (h : Underway s r e done w) (he : Candidate.Stored r e)
    (hq : w.queue = file :: rest) : file.path ∉ w.findings.unsupported.keys := by
  have hn := nodup_paths h.nodup (h.stored he)
  rw [List.map_append, List.nodup_append] at hn
  obtain ⟨hdone, _, hnew⟩ := hn
  have haccounts := (accounts_start (s := s) (r := r) e.path e.content).ledger hdone
  intro hmem
  rw [h.findings] at hmem
  refine hnew _ (haccounts.path_mem_of_mem_unsupported hmem) file.path ?_ rfl
  rw [hq]
  exact List.mem_cons_self

theorem step_provide (hallowed : s.allowed ⊆ allowed) (he : Candidate.Stored r e)
    (h : Underway s r e done w) (hq : w.queue = file :: rest) :
    step { s with allowed } r (w.provide allowed) file rest
      = (step s r w file rest).map (Walk.provide allowed) := by
  unfold step
  rw [examine_provide hallowed]
  cases hx : examine s r file with
  | error why => rfl
  | ok x =>
    obtain rfl : examined s r file = x := examined_of_ok hx
    have hrecord : record file.path ((examined s r file).provide allowed)
          (w.findings.provide allowed)
        = (record file.path (examined s r file) w.findings).provide allowed :=
      record_provide (ascending_unsupported s r file).nodup (h.not_mem_unsupported he hq)
    have henqueue : ∀ w₁ : Walk, enqueue s.maxFiles (examined s r file).found (w₁.provide allowed)
        = (enqueue s.maxFiles (examined s r file).found w₁).map (Walk.provide allowed) :=
      enqueue_provide s.maxFiles (examined s r file).found
    unfold Walk.provide at henqueue ⊢
    dsimp only [Except.map, Examination.provide] at henqueue hrecord ⊢
    rw [hrecord, henqueue ⟨record file.path (examined s r file) w.findings, rest,
      w.trace ++ (examined s r file).trace⟩]
    cases enqueue s.maxFiles (examined s r file).found _ <;> rfl

/-! ## Whole runs -/

/-- The run with more packages provided comes through the same walks. -/
theorem ComesTo.provide (hallowed : s.allowed ⊆ allowed) (he : Candidate.Stored r e)
    (h : ComesTo s r (start e) w) :
    ComesTo { s with allowed } r (start e) (w.provide allowed) := by
  induction h with
  | refl => exact ComesTo.refl
  | @tail w w' hcomes hround ih =>
    obtain ⟨file, rest, hq, hstep⟩ := hround
    obtain ⟨done, hunder⟩ := ComesTo.underway he hcomes
    refine ih.tail ⟨file, rest, hq, ?_⟩
    rw [step_provide hallowed he hunder hq, hstep]
    rfl

/-- It comes through no other walks. -/
theorem ComesTo.of_provide (hallowed : s.allowed ⊆ allowed) (he : Candidate.Stored r e)
    (h : ComesTo { s with allowed } r (start e) w') :
    ∃ w, ComesTo s r (start e) w ∧ w.provide allowed = w' := by
  induction h with
  | refl => exact ⟨start e, ComesTo.refl, rfl⟩
  | tail _ hround ih =>
    obtain ⟨w, hcomes, rfl⟩ := ih
    obtain ⟨file, rest, hq, hstep⟩ := hround
    obtain ⟨done, hunder⟩ := hcomes.underway he
    rw [step_provide hallowed he hunder hq] at hstep
    cases hbefore : step s r w file rest with
    | error stop =>
      rw [hbefore] at hstep
      exact absurd hstep nofun
    | ok w₁ =>
      rw [hbefore] at hstep
      exact ⟨w₁, hcomes.tail ⟨file, rest, hq, hbefore⟩, Except.ok.inj hstep⟩

/-- How the run with more packages provided ends, by how the run ended before: both after a walk
with an empty queue, or with one failure that is not about faults. -/
inductive EndsAlike (s : Settings) (r : Reader) (e : SourceFile) (allowed : List Text) :
    Resolution → Resolution → Prop
  /-- The queue is empty. -/
  | finished {w : Walk} (h : ComesTo s r (start e) w) (hq : w.queue = []) :
    EndsAlike s r e allowed (finish w) (finish (w.provide allowed))
  /-- The run failed half-way. -/
  | failed {failure : Failure} {trace : List Event}
      (h : ∀ report, failure ≠ .reported (.faulty report)) :
    EndsAlike s r e allowed ⟨.error failure, trace⟩ ⟨.error failure, trace⟩

theorem run_provide (hallowed : s.allowed ⊆ allowed) (he : Candidate.Stored r e)
    (h : ComesTo s r (start e) w) (n : Nat) :
    EndsAlike s r e allowed (run s r n w) (run { s with allowed } r n (w.provide allowed)) := by
  -- the two runs take the same files, so they go on and stop together
  induction n generalizing w with
  | zero =>
    cases hq : w.queue with
    | nil =>
      have hq' : (w.provide allowed).queue = [] := hq
      rw [run_of_nil hq, run_of_nil hq']
      exact EndsAlike.finished h hq
    | cons file rest =>
      have hq' : (w.provide allowed).queue = file :: rest := hq
      rw [run_zero_of_cons hq, run_zero_of_cons hq']
      exact EndsAlike.failed nofun
  | succ n ih =>
    cases hq : w.queue with
    | nil =>
      have hq' : (w.provide allowed).queue = [] := hq
      rw [run_of_nil hq, run_of_nil hq']
      exact EndsAlike.finished h hq
    | cons file rest =>
      have hq' : (w.provide allowed).queue = file :: rest := hq
      obtain ⟨done, hunder⟩ := h.underway he
      rw [run_succ_of_cons hq, run_succ_of_cons hq', step_provide hallowed he hunder hq]
      cases hstep : step s r w file rest with
      | error stop => exact EndsAlike.failed (step_failure_ne_faulty hstep)
      | ok w₁ => exact ih (h.tail ⟨file, rest, hq, hstep⟩)

/-! ## Outcomes -/

theorem finish_outcome (w : Walk) :
    (finish w).outcome = if w.findings.faultReport.isEmpty then .ok w.findings.files
      else .error (.reported (.faulty w.findings.faultReport)) := by
  have hfaults : w.findings.hasFaults = !w.findings.faultReport.isEmpty := rfl
  unfold finish Collector.validate
  rw [hfaults]
  cases w.findings.faultReport.isEmpty <;> rfl

/-- What is empty stays empty. -/
theorem isEmpty_provide {report : FaultReport} (h : report.isEmpty = true) :
    (report.provide allowed).isEmpty = true := by
  unfold FaultReport.isEmpty at h ⊢
  rw [Bool.and_eq_true, OrderedMap.isEmpty_iff] at h ⊢
  refine ⟨h.1, ?_⟩
  unfold FaultReport.provide OrderedMap.stillLacking
  dsimp only
  rw [h.2, List.map_nil, List.filter_nil]

/-- What the run with more packages provided comes to, by what the run came to before. -/
structure OutcomesProvided (s : Settings) (r : Reader) (entrypoint : Text) (allowed : List Text)
    (before after : Except Failure (OrderedMap Text Text)) : Prop where
  /-- It fails for anything but faults in the same cases. -/
  failure : ∀ failure, (∀ report, failure ≠ .reported (.faulty report)) →
    (after = .error failure ↔ before = .error failure)
  /-- A result stays the result. -/
  files : ∀ files, before = .ok files → after = .ok files
  /-- Of a report what is left is reported, or if nothing is left the files visited are returned. -/
  report : ∀ report, before = .error (.reported (.faulty report)) →
    ∃ e w, IsEntry r entrypoint e ∧ ComesTo s r (start e) w ∧ w.queue = []
      ∧ after = if (report.provide allowed).isEmpty then .ok w.findings.files
          else .error (.reported (.faulty (report.provide allowed)))

/-- The same failure, if it is not about faults. -/
theorem OutcomesProvided.of_failure {failure : Failure}
    (h : ∀ report, failure ≠ .reported (.faulty report)) :
    OutcomesProvided s r entrypoint allowed (.error failure) (.error failure) where
  failure := fun _ _ => Iff.rfl
  files := nofun
  report := fun report heq => absurd (Except.error.inj heq) (h report)

theorem OutcomesProvided.of_finish (he : IsEntry r entrypoint e)
    (hw : ComesTo s r (start e) w) (hq : w.queue = []) :
    OutcomesProvided s r entrypoint allowed (finish w).outcome
      (finish (w.provide allowed)).outcome := by
  have hreport : (w.provide allowed).findings.faultReport
      = w.findings.faultReport.provide allowed := rfl
  have hfiles : (w.provide allowed).findings.files = w.findings.files := rfl
  rw [finish_outcome, finish_outcome, hreport, hfiles]
  by_cases hempty : w.findings.faultReport.isEmpty = true
  · rw [if_pos hempty, if_pos (isEmpty_provide hempty)]
    exact ⟨fun _ _ => ⟨nofun, nofun⟩, fun _ heq => heq, nofun⟩
  · rw [if_neg hempty]
    refine ⟨?_, nofun, ?_⟩
    · intro failure hfailure
      have hne : ∀ report, Except.error (Failure.reported (.faulty report))
          ≠ (.error failure : Except Failure (OrderedMap Text Text)) :=
        fun report heq => hfailure report (Except.error.inj heq).symm
      split
      · exact ⟨nofun, fun heq => absurd heq (hne _)⟩
      · exact ⟨fun heq => absurd heq (hne _), fun heq => absurd heq (hne _)⟩
    · intro report heq
      rw [← faulty_inj heq]
      exact ⟨e, w, he, hw, hq, rfl⟩

theorem outcomesProvided_of_isEntry (hallowed : s.allowed ⊆ allowed)
    (he : IsEntry r entrypoint e) :
    OutcomesProvided s r entrypoint allowed (resolve s r entrypoint).outcome
      (resolve { s with allowed } r entrypoint).outcome := by
  have hends := run_provide hallowed he.stored ComesTo.refl r.paths.length
  have hstart : (start e).provide allowed = start e := rfl
  rw [hstart, ← he.resolve_eq, ← he.resolve_eq] at hends
  generalize resolve s r entrypoint = x, resolve { s with allowed } r entrypoint = x' at hends ⊢
  cases hends with
  | finished hw hq => exact OutcomesProvided.of_finish he hw hq
  | failed h => exact OutcomesProvided.of_failure h

/-- Without an entry file nothing is asked about packages. -/
theorem outcomesProvided_of_not_isEntry (h : ∀ e, ¬ IsEntry r entrypoint e) :
    OutcomesProvided s r entrypoint allowed (resolve s r entrypoint).outcome
      (resolve { s with allowed } r entrypoint).outcome := by
  have hsame : resolve { s with allowed } r entrypoint = resolve s r entrypoint :=
    resolve_eq_of_not_isEntry h
  rw [hsame]
  rcases (resolve_of_not_isEntry (s := s) h).1 with hout | ⟨why, hout⟩
  · rw [hout]
    exact OutcomesProvided.of_failure nofun
  · rw [hout]
    exact OutcomesProvided.of_failure nofun

/-- **Providing more packages.** Let more packages be provided than before. Then the run comes
through the same walks, with the packages that are provided now struck from the findings: it visits
the same files, with the same texts and in the same order, and finds the same faults otherwise. It
fails for the entrypoint or for the limit in the same cases, a result stays the result, and of a
report what is left is reported. -/
theorem resolve_provide (h : s.allowed ⊆ allowed) :
    (∀ e, IsEntry r entrypoint e → ∀ w',
        ComesTo { s with allowed } r (start e) w'
          ↔ ∃ w, ComesTo s r (start e) w ∧ w.provide allowed = w')
      ∧ OutcomesProvided s r entrypoint allowed (resolve s r entrypoint).outcome
          (resolve { s with allowed } r entrypoint).outcome := by
  constructor
  · intro e he w'
    constructor
    · exact fun hw' => hw'.of_provide h he.stored
    · rintro ⟨w, hw, rfl⟩
      exact hw.provide h he.stored
  · by_cases hentry : ∃ e, IsEntry r entrypoint e
    · obtain ⟨e, he⟩ := hentry
      exact outcomesProvided_of_isEntry h he
    · exact outcomesProvided_of_not_isEntry fun e he => hentry ⟨e, he⟩

/-- With the package `q` provided, the report about `d.js` keeps the faults of the other kinds. -/
theorem reportD_provide :
    (resolve { lineSettings with allowed := [['q']] } faultyScripts.reader scriptD.path).outcome
      = .error (.reported (.faulty { reportD with unsupported := ∅ })) := by
  have hrun : (resolve lineSettings faultyScripts.reader scriptD.path).outcome
      = .error (.reported (.faulty reportD)) := rfl
  have hallowed : lineSettings.allowed ⊆ [['q']] := List.nil_subset _
  obtain ⟨_, _, _, _, _, hout⟩ := (resolve_provide hallowed).2.report reportD hrun
  exact hout

end Resolution

end ImportClosure
