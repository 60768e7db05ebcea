import ImportClosure.Proofs.Closure
/-!
What the report of a failed run says.

The findings of a run without a limit are the ledger of the breadth-first order, and the account
of that ledger names, map by map, the files that contribute to it. Here the account is read
through the import graph: every fault of a reachable file is reported, under the right file and
with the right reason, nothing else is, and the files stand in the order in which they were
found (`resolve_report_exact`). A file that can only be reached through a refused file is not
reachable, so nothing is said about it.
-/

namespace ImportClosure.Resolution

variable {s : Settings} {r : Reader} {e : SourceFile} {entrypoint : Text}
variable {order files : List SourceFile} {c : Collector}

/-! ## Selections -/

/-- The paths of those files of a list that have a property, in the order of the list. -/
structure Selection (files : List SourceFile) (p : SourceFile → Prop) (paths : List Text) :
    Prop where
  /-- The order is that of the list. -/
  sublist : paths.Sublist (files.map SourceFile.path)
  /-- No path stands twice. -/
  nodup : paths.Nodup
  /-- The paths are those of the files with the property. -/
  mem_iff : ∀ path, path ∈ paths ↔ ∃ f ∈ files, p f ∧ f.path = path

/-- A filter selects. -/
theorem selection_filter {p : SourceFile → Prop} (q : SourceFile → Bool)
    (hn : (files.map SourceFile.path).Nodup) (h : ∀ f, q f = true ↔ p f) :
    Selection files p ((files.filter q).map SourceFile.path) := by
  have hsub : ((files.filter q).map SourceFile.path).Sublist (files.map SourceFile.path) :=
    (List.filter_sublist).map SourceFile.path
  refine ⟨hsub, hn.sublist hsub, ?_⟩
  intro path
  rw [List.mem_map]
  constructor
  · rintro ⟨f, hf, hpath⟩
    obtain ⟨hmem, hq⟩ := List.mem_filter.1 hf
    exact ⟨f, hmem, (h f).1 hq, hpath⟩
  · rintro ⟨f, hmem, hp, hpath⟩
    exact ⟨f, List.mem_filter.2 ⟨hmem, (h f).2 hp⟩, hpath⟩

/-! ## The account, map by map -/

namespace Accounts

theorem unparsed_keys (h : Accounts s r files c) (hn : (files.map SourceFile.path).Nodup) :
    Selection files (fun f => ∃ reason, Rejects s f reason) c.unparsed.keys := by
  have hkeys : c.unparsed.keys
      = (files.filter fun f => (examined s r f).fault.isSome).map SourceFile.path := by
    unfold OrderedMap.keys
    rw [h.unparsed]
    -- a list of files lists its own refusals, whether its paths differ or not
    clear h hn
    induction files with
    | nil => rfl
    | cons f files ih => cases hfault : (examined s r f).fault <;> simp [hfault, ih]
  rw [hkeys]
  apply selection_filter _ hn
  intro f
  rw [Option.isSome_iff_exists]
  exact exists_congr fun _ => examined_fault_eq_some_iff

theorem unparsed_get? (h : Accounts s r files c) (path reason : Text) :
    c.unparsed.get? path = some reason ↔ ∃ f ∈ files, f.path = path ∧ Rejects s f reason := by
  rw [OrderedMap.get?_eq_some_iff, h.unparsed, List.mem_filterMap]
  refine exists_congr fun f => and_congr_right fun _ => ?_
  rw [← examined_fault_eq_some_iff (r := r)]
  cases (examined s r f).fault <;> simp

theorem unsupported_keys (h : Accounts s r files c) (hn : (files.map SourceFile.path).Nodup) :
    Selection files (fun f => ∃ name, Lacks s f name) c.unsupported.keys := by
  have hkeys : c.unsupported.keys
      = (files.filter fun f => (examined s r f).unsupported ≠ []).map SourceFile.path := by
    unfold OrderedMap.keys
    rw [h.unsupported, List.map_map]
    rfl
  rw [hkeys]
  apply selection_filter _ hn
  intro f
  rw [decide_eq_true_eq]
  constructor
  · intro hne
    obtain ⟨name, hname⟩ := List.exists_mem_of_ne_nil _ hne
    exact ⟨name, mem_unsupported.1 hname⟩
  · rintro ⟨name, hname⟩
    exact List.ne_nil_of_mem (mem_unsupported.2 hname)

theorem unsupported_get? (h : Accounts s r files c) {path : Text} {names : List Text}
    (hget : c.unsupported.get? path = some names) :
    Text.Ascending names
      ∧ ∃ f ∈ files, f.path = path ∧ ∀ name, name ∈ names ↔ Lacks s f name := by
  rw [OrderedMap.get?_eq_some_iff, h.unsupported, List.mem_map] at hget
  obtain ⟨f, hf, heq⟩ := hget
  obtain ⟨hpath, hnames⟩ := Prod.mk.inj heq
  rw [← hnames]
  exact ⟨ascending_unsupported s r f, f, (List.mem_filter.1 hf).1, hpath,
    fun _ => mem_unsupported⟩

theorem missing_keys (h : Accounts s r files c) (path : Text) :
    path ∈ c.missing.keys ↔ ∃ f ∈ files, Misses s r f path := by
  have hmem : path ∈ files.flatMap (fun f => (examined s r f).missing)
      ↔ ∃ f ∈ files, Misses s r f path := by
    rw [List.mem_flatMap]
    exact exists_congr fun f => and_congr_right fun _ => mem_missing
  rw [OrderedMap.mem_keys_iff, h.missing path, ← hmem]
  by_cases hp : path ∈ files.flatMap (fun f => (examined s r f).missing)
  · rw [if_pos hp]
    exact ⟨fun _ => hp, fun _ => ⟨_, rfl⟩⟩
  · rw [if_neg hp]
    exact ⟨fun ⟨_, hv⟩ => absurd hv nofun, fun hp' => absurd hp' hp⟩

theorem missing_get? (h : Accounts s r files c) (hn : (files.map SourceFile.path).Nodup)
    {path : Text} {refs : List Text} (hget : c.missing.get? path = some refs) :
    Selection files (fun f => Misses s r f path) refs := by
  rw [h.missing path] at hget
  split at hget
  · rw [← Option.some.inj hget]
    apply selection_filter _ hn
    intro f
    rw [decide_eq_true_eq]
    exact mem_missing
  · exact absurd hget nofun

end Accounts

/-! ## Exact reports -/

/-- The report about the files of an order is complete, and says nothing else. -/
structure ExactReport (s : Settings) (r : Reader) (e : SourceFile) (order : List SourceFile)
    (report : FaultReport) : Prop where
  /-- The report is about the run from this file. -/
  entrypoint : report.entrypoint = e.path
  /-- The refused files are reported, in the order in which they were found. -/
  unparsed_keys : Selection order (fun f => ∃ reason, Rejects s f reason) report.unparsed.keys
  /-- Each is reported for the reason for which it was refused. -/
  unparsed : ∀ path reason, report.unparsed.get? path = some reason
    ↔ ∃ f ∈ order, f.path = path ∧ Rejects s f reason
  /-- The files that lack packages are reported, in the order in which they were found. -/
  unsupported_keys : Selection order (fun f => ∃ name, Lacks s f name) report.unsupported.keys
  /-- Each is reported with the packages it lacks, which ascend. -/
  unsupported : ∀ path names, report.unsupported.get? path = some names → Text.Ascending names
    ∧ ∃ f ∈ order, f.path = path ∧ ∀ name, name ∈ names ↔ Lacks s f name
  /-- The candidates that lead nowhere are reported. -/
  missing_keys : ∀ path, path ∈ report.missing.keys ↔ ∃ f ∈ order, Misses s r f path
  /-- Each is reported with the files that refer to it in vain, in the order in which these were
  found. -/
  missing : ∀ path refs, report.missing.get? path = some refs →
    Selection order (fun f => Misses s r f path) refs

theorem exactReport_faultReport (he : IsEntry r entrypoint e)
    (ho : BreadthFirst (importedFiles s r) e order) :
    ExactReport s r e order (ledger s r (.start e.path e.content) order).faultReport := by
  have h := accounts_order he ho
  have hn := nodup_order_paths he ho
  refine ⟨?_, h.unparsed_keys hn, h.unparsed_get?, h.unsupported_keys hn, ?_, h.missing_keys, ?_⟩
  · exact ledger_entrypoint _ order
  · exact fun _ _ hget => h.unsupported_get? hget
  · exact fun _ _ hget => h.missing_get? hn hget

/-! ## A script with faults -/

/-- The script `d.js`, with a line that leads nowhere, a package, and a line that leads to the
file `f.t`. -/
def scriptD : SourceFile :=
  ⟨['d', Path.dot, 'j', 's'], [Path.dot, Path.slash, 'e', '\n', 'q', '\n', Path.dot, Path.slash,
    'f', Path.dot, 't'], some .javascript⟩

/-- The file `f.t`, whose extension tells no grammar. -/
def fileF : SourceFile := ⟨['f', Path.dot, 't'], [], none⟩

/-- The report about the script `d.js`, which has one fault of each kind. -/
def reportD : FaultReport where
  entrypoint := scriptD.path
  missing := .ofList [(['e'], [scriptD.path])]
  unparsed := .ofList [(fileF.path, ResolutionError.unsupportedExtension fileF.path)]
  unsupported := .ofList [(scriptD.path, [['q']])]

/-- The script and the file in memory. -/
def faultyScripts : MemoryFiles :=
  MemoryFiles.empty.addAll ([scriptD, fileF].map SourceFile.entry)

/-! ## Reports of runs -/

/-- **The report.** If a run without a limit ends in a report, the report is exact about the
reachable files, in the order in which they were found. -/
theorem resolve_report_exact {report : FaultReport} (hs : s.Total) (hr : r.IsFinite)
    (hlimit : s.maxFiles = 0) (he : IsEntry r entrypoint e)
    (h : (resolve s r entrypoint).outcome = .error (.reported (.faulty report))) :
    ∃ order, BreadthFirst (importedFiles s r) e order
      ∧ (∀ f, f ∈ order ↔ Reachable s r e f) ∧ ExactReport s r e order report := by
  obtain ⟨order, ho⟩ := exists_breadthFirst hs hr he
  rw [resolve_outcome_of_no_limit hs hr hlimit he ho] at h
  refine ⟨order, ho, fun f => mem_order_iff ho, ?_⟩
  unfold verdict at h
  split at h
  · rw [← faulty_inj h]
    exact exactReport_faultReport he ho
  · exact absurd h nofun

theorem reportD_exact :
    ∃ order, BreadthFirst (importedFiles lineSettings faultyScripts.reader) scriptD order
      ∧ (∀ f, f ∈ order ↔ Reachable lineSettings faultyScripts.reader scriptD f)
      ∧ ExactReport lineSettings faultyScripts.reader scriptD order reportD :=
  have he : IsEntry faultyScripts.reader scriptD.path scriptD := ⟨rfl, by decide⟩
  resolve_report_exact total_lineSettings faultyScripts.isFinite_reader rfl he rfl

end ImportClosure.Resolution
