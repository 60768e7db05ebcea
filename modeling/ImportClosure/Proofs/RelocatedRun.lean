import ImportClosure.Proofs.ExactReport
import ImportClosure.Proofs.Relocation
import ImportClosure.Proofs.Termination
/-!
Runs over files that were moved below a directory.

A run over files at inner paths and a run over the same files below a directory go hand in hand: at
every moment findings and queue of the second are those of the first, moved (`Walk.IsRelocated`). A
round keeps this up unless a candidate leads out (`step_relocate`), so the two loops go through the
same files and end in the same way (`Loop.relocate`). With files in memory the two runs come to the
same outcome, up to the place of the files (`resolve_relocate`).
-/

namespace ImportClosure.Resolution

open ImportClosure.Path (under IsInner IsBase)

variable {root entrypoint : Text} {s : Settings} {r r' : Reader} {e f file : SourceFile}
variable {w w' last : Walk} {taken queued : List SourceFile} {x : Resolution}

/-! ## One round -/

/-- The walk below a directory, what was done so far apart. -/
structure Walk.IsRelocated (root : Text) (w w' : Walk) : Prop where
  findings : w'.findings = w.findings.relocate root
  queue : w'.queue = w.queue.map (SourceFile.relocate root)

theorem Walk.IsRelocated.queue_eq_cons {rest : List SourceFile} (hw : w.IsRelocated root w')
    (hq : w.queue = file :: rest) :
    w'.queue = file.relocate root :: rest.map (SourceFile.relocate root) := by
  rw [hw.queue, hq, List.map_cons]

/-- Files are stored and queued in the same order below a directory. -/
theorem enqueue_relocate {limit : Int} {found : List SourceFile} (hw : w.IsRelocated root w') :
    Alike (fun failure failure' => failure' = failure.relocate root) (Walk.IsRelocated root)
      (enqueue limit found w) (enqueue limit (found.map (SourceFile.relocate root)) w') := by
  -- both walks grow with each new file, so they vary in the induction
  induction found generalizing w w' with
  | nil => exact Alike.ok hw
  | cons f found ih =>
    have hvisited : w'.findings.hasFile (f.relocate root).path = w.findings.hasFile f.path := by
      rw [hw.findings]
      exact Collector.hasFile_relocate root w.findings f.path
    have hadded : w'.findings.addFile (f.relocate root).path (f.relocate root).content
        = (w.findings.addFile f.path f.content).relocate root := by
      rw [hw.findings, Collector.relocate_addFile]
      rfl
    rw [List.map_cons]
    unfold enqueue
    dsimp only
    rw [hvisited, hadded, Collector.size_relocate]
    by_cases hknown : w.findings.hasFile f.path = true
    · rw [if_pos hknown, if_pos hknown]
      exact ih hw
    · rw [if_neg hknown, if_neg hknown]
      by_cases hover : exceeds limit (w.findings.addFile f.path f.content).size = true
      · rw [if_pos hover, if_pos hover]
        exact Alike.error rfl
      · rw [if_neg hover, if_neg hover]
        refine ih ⟨rfl, ?_⟩
        rw [hw.queue, List.map_append, List.map_singleton]

/-- A round does the same below a directory. -/
theorem step_relocate (hroot : IsBase root) (hr : r.IsRelocated root r')
    (hw : w.IsRelocated root w') (hfile : IsInnerFile r file) (hbelow : AsksBelow s file)
    (rest : List SourceFile) :
    Alike (fun stop stop' => stop'.failure = stop.failure.relocate root) (Walk.IsRelocated root)
      (step s r w file rest)
      (step s r' w' (file.relocate root) (rest.map (SourceFile.relocate root))) := by
  have hexamine := examine_relocate hroot hr hfile hbelow
  unfold step
  generalize examine s r file = z, examine s r' (file.relocate root) = z' at hexamine ⊢
  cases hexamine with
  | error h =>
    subst h
    exact Alike.error rfl
  | @ok y y' h =>
    have henqueue : Alike (fun failure failure' => failure' = failure.relocate root)
        (Walk.IsRelocated root)
        (enqueue s.maxFiles y.found ⟨record file.path y w.findings, rest, w.trace ++ y.trace⟩)
        (enqueue s.maxFiles y'.found ⟨record (file.relocate root).path y' w'.findings,
          rest.map (SourceFile.relocate root), w'.trace ++ y'.trace⟩) := by
      rw [h.found]
      refine enqueue_relocate ⟨?_, rfl⟩
      rw [hw.findings]
      exact record_relocate h w.findings
    dsimp only
    generalize enqueue s.maxFiles y.found _ = z, enqueue s.maxFiles y'.found _ = z' at henqueue ⊢
    cases henqueue with
    | error hfailure => exact Alike.error hfailure
    | ok hmoved => exact Alike.ok hmoved

/-! ## Whole runs -/

theorem finish_relocate (hw : w.IsRelocated root w') :
    (finish w').outcome = relocateOutcome root (finish w).outcome := by
  unfold finish
  rw [hw.findings, Collector.validate_relocate]
  cases w.findings.validate <;> rfl

/-- The files that a round queues are at inner paths. -/
theorem isInnerFile_of_mem_queuedBy (hfile : IsInnerFile r file) (hbelow : AsksBelow s file)
    (hf : f ∈ queuedBy s r w file) : IsInnerFile r f := by
  have himports := imports_of_mem_queuedBy hf
  refine ⟨himports.stored, ?_⟩
  obtain ⟨v, m, hparses, t, ht, hfind⟩ := himports
  have hc : Candidate.ofSpecifier (Path.directory file.path) t ∈ candidates file.path m :=
    List.mem_map_of_mem ht
  exact Candidate.isInner_of_find?
    (isInner_of_mem_candidates hfile.inner (hbelow v m hparses) _ hc) hfind

/-- The loop goes through the same files below a directory, and ends in the same way. -/
theorem Loop.relocate (hroot : IsBase root) (hr : r.IsRelocated root r')
    (h : Loop s r w taken queued last x) (hw : w.IsRelocated root w')
    (hqueue : ∀ f ∈ w.queue, IsInnerFile r f) (hbelow : ∀ f ∈ taken, AsksBelow s f) :
    ∃ queued' last' x', Loop s r' w' (taken.map (SourceFile.relocate root)) queued' last' x'
      ∧ x'.outcome = relocateOutcome root x.outcome := by
  -- the induction is on the first loop; that its queue is at inner paths is kept up on the way
  induction h generalizing w' with
  | drained hq =>
    have hq' : w'.queue = [] := by rw [hw.queue, hq, List.map_nil]
    exact ⟨_, _, _, Loop.drained hq', finish_relocate hw⟩
  | @stopped w file rest stop hq hstep =>
    have hfile := hqueue file (hq ▸ List.mem_cons_self)
    have hround := step_relocate hroot hr hw hfile (hbelow file List.mem_cons_self) rest
    rw [hstep] at hround
    obtain ⟨stop', hstep', hfailure⟩ := hround.exists_error
    exact ⟨_, _, _, Loop.stopped (hw.queue_eq_cons hq) hstep', congrArg Except.error hfailure⟩
  | @round w w₁ last file rest taken queued x hq hstep _ ih =>
    have hfile := hqueue file (hq ▸ List.mem_cons_self)
    have hasks := hbelow file List.mem_cons_self
    have hround := step_relocate hroot hr hw hfile hasks rest
    rw [hstep] at hround
    obtain ⟨w₁', hstep', hw₁⟩ := hround.exists_ok
    -- what the round queues was found through candidates that do not lead out
    have hqueue₁ : ∀ f ∈ w₁.queue, IsInnerFile r f := by
      intro f hf
      rw [(step_eq_ok hstep).1] at hf
      rcases List.mem_append.1 hf with hf | hf
      · exact hqueue f (hq ▸ List.mem_cons_of_mem _ hf)
      · exact isInnerFile_of_mem_queuedBy hfile hasks hf
    obtain ⟨queued', last', x', hloop, hout⟩ :=
      ih hw₁ hqueue₁ fun f hf => hbelow f (List.mem_cons_of_mem _ hf)
    exact ⟨_, last', x', Loop.round (hw.queue_eq_cons hq) hstep' hloop, hout⟩

/-! ## Files in memory -/

/-- No candidate of a file whose specifiers the run has asked for leads out. -/
def StaysBelow (s : Settings) (r : Reader) (entrypoint : Text) : Prop :=
  ∀ f, Candidate.Stored r f → f.path ∈ extractions (resolve s r entrypoint).trace → AsksBelow s f

theorem isRelocated_memory {files : OrderedMap Text Text} (hroot : IsBase root)
    (hfiles : ∀ path ∈ files.keys, IsInner path) :
    (MemoryFiles.empty.addAll files.entries).reader.IsRelocated root
      (MemoryFiles.empty.addAll (relocateFiles root files).entries).reader := by
  intro path content hpath
  have hnormal : ∀ p ∈ (relocateFiles root files).keys, Path.IsNormal p := by
    intro p hp
    unfold relocateFiles at hp
    rw [OrderedMap.keys_rename] at hp
    obtain ⟨q, hq, rfl⟩ := List.mem_map.1 hp
    exact hroot.isNormal_under (hfiles q hq)
  rw [MemoryFiles.read_addAll_entries_iff hnormal (hroot.isNormal_under hpath),
    MemoryFiles.read_addAll_entries_iff (fun p hp => (hfiles p hp).normal) hpath.normal]
  unfold relocateFiles
  rw [OrderedMap.get?_rename, Option.map_id']

theorem isEntry_relocate (hroot : IsBase root) (hr : r.IsRelocated root r')
    (hpath : IsInner entrypoint) {e' : SourceFile} :
    IsEntry r' (under root entrypoint) e'
      ↔ ∃ e, IsEntry r entrypoint e ∧ e.relocate root = e' := by
  have hnormal : Path.normalize entrypoint = entrypoint := hpath.normal
  have hnormal' : Path.normalize (under root entrypoint) = under root entrypoint :=
    hroot.isNormal_under hpath
  unfold IsEntry
  rw [hnormal, hnormal', Candidate.readable?_relocate hr hpath, Option.map_eq_some_iff]
  constructor
  · rintro ⟨⟨e, he, rfl⟩, hv⟩
    exact ⟨e, ⟨he, hv⟩, rfl⟩
  · rintro ⟨e, ⟨he, hv⟩, rfl⟩
    exact ⟨⟨e, he, rfl⟩, hv⟩

/-- Where there is no entry file in memory, this is what a run says. -/
theorem resolve_memory_of_not_isEntry {files : MemoryFiles}
    (hpath : Path.IsNormal entrypoint) (h : ∀ e, ¬ IsEntry files.reader entrypoint e) :
    (resolve s files.reader entrypoint).outcome = .error (.reported
      (if Variant.ofPath? entrypoint = none then .unsupportedEntrypoint entrypoint
      else .unreadableEntrypoint entrypoint
        (some (ReadFailure.noSuchFile entrypoint).message))) := by
  have hnormal : Path.normalize entrypoint = entrypoint := hpath
  have hcases := isEntry_or_refused s files.reader entrypoint
  rw [hnormal] at hcases
  rcases hcases with ⟨e, he⟩ | ⟨hv, heq⟩ | ⟨v, why, hv, hread, heq⟩
  · exact absurd he (h e)
  · rw [heq, if_pos hv]
  · rw [heq, if_neg (by rw [hv]; exact nofun), MemoryFiles.read_eq_error hread]

/-- The run from an entry file goes through the same files below a directory. -/
theorem resolve_relocate_of_isEntry (hroot : IsBase root) (hr : r.IsRelocated root r')
    (hfinite : r.IsFinite) (hfinite' : r'.IsFinite) (hpath : IsInner entrypoint)
    (he : IsEntry r entrypoint e) (hbelow : StaysBelow s r entrypoint) :
    (resolve s r' (under root entrypoint)).outcome
      = relocateOutcome root (resolve s r entrypoint).outcome := by
  have he' : IsEntry r' (under root entrypoint) (e.relocate root) :=
    (isEntry_relocate hroot hr hpath).2 ⟨e, he, rfl⟩
  obtain ⟨taken, queued, last, hloop⟩ := exists_loop_resolve s hfinite he
  obtain ⟨taken', queued', last', hloop'⟩ := exists_loop_resolve s hfinite' he'
  have hnormal : Path.normalize entrypoint = entrypoint := hpath.normal
  have hinner : IsInner e.path := by
    rw [he.path_eq, hnormal]
    exact hpath
  have htaken : taken <+: e :: queued := hloop.taken_prefix
  have hasks : ∀ f ∈ taken, AsksBelow s f := by
    intro f hf v m hparses
    refine hbelow f (hloop.stored he f (htaken.subset hf)).1 ?_ v m hparses
    have hextractions : extractions (resolve s r entrypoint).trace = grammarPaths taken :=
      hloop.extractions_eq
    rw [hextractions]
    exact List.mem_map_of_mem (List.mem_filter.2 ⟨hf, by rw [hparses.1]; rfl⟩)
  -- the loop below the directory is the loop of the second run, for a loop comes to one end
  have hstart : (start e).IsRelocated root (start (e.relocate root)) := ⟨rfl, rfl⟩
  obtain ⟨_, _, x', hmoved, hout⟩ :=
    hloop.relocate hroot hr hstart (List.forall_mem_singleton.2 ⟨he.stored, hinner⟩) hasks
  rw [hloop'.unique hmoved, hout]

/-- The script `p/h.js` with the line `../d`. -/
def scriptH : SourceFile :=
  ⟨['p', Path.slash, 'h', Path.dot, 'j', 's'], [Path.dot, Path.dot, Path.slash, 'd'],
    some .javascript⟩

/-- The script above the script `d.js` that has faults, and the file `f.t`. -/
def nestedScripts : OrderedMap Text Text := .ofList ([scriptH, scriptD, fileF].map SourceFile.entry)

/-- The report about `p/h.js`, which says nothing of that script itself. -/
def reportH : FaultReport := { reportD with entrypoint := scriptH.path }

/-- **Relocation.** Let files lie at inner paths in memory, and let no candidate that comes up in a
run lead out. Then a run over the same files below a directory comes to the same outcome, with all
files below that directory. -/
theorem resolve_relocate {files : OrderedMap Text Text} (hroot : IsBase root)
    (hfiles : ∀ path ∈ files.keys, IsInner path) (hpath : IsInner entrypoint)
    (hbelow : StaysBelow s (MemoryFiles.empty.addAll files.entries).reader entrypoint) :
    (resolve s (MemoryFiles.empty.addAll (relocateFiles root files).entries).reader
        (under root entrypoint)).outcome
      = relocateOutcome root
          (resolve s (MemoryFiles.empty.addAll files.entries).reader entrypoint).outcome := by
  have hr := isRelocated_memory hroot hfiles
  by_cases hentry : ∃ e, IsEntry (MemoryFiles.empty.addAll files.entries).reader entrypoint e
  · obtain ⟨e, he⟩ := hentry
    exact resolve_relocate_of_isEntry hroot hr (MemoryFiles.isFinite_reader _)
      (MemoryFiles.isFinite_reader _) hpath he hbelow
  -- an entry file in one storage is an entry file in the other, so both runs end at once
  · have hnone : ∀ e, ¬ IsEntry (MemoryFiles.empty.addAll files.entries).reader entrypoint e :=
      fun e he => hentry ⟨e, he⟩
    have hnone' : ∀ e, ¬ IsEntry
        (MemoryFiles.empty.addAll (relocateFiles root files).entries).reader
        (under root entrypoint) e := by
      intro e' he'
      obtain ⟨e, he, _⟩ := (isEntry_relocate hroot hr hpath).1 he'
      exact hentry ⟨e, he⟩
    rw [resolve_memory_of_not_isEntry hpath.normal hnone,
      resolve_memory_of_not_isEntry (hroot.isNormal_under hpath) hnone', Variant.ofPath?_under]
    split <;> rfl

/-- Below the directory `/r` the report about `p/h.js` names the files there. -/
theorem nestedScripts_relocate :
    (resolve lineSettings (MemoryFiles.empty.addAll
        (relocateFiles [Path.slash, 'r'] nestedScripts).entries).reader
        (under [Path.slash, 'r'] scriptH.path)).outcome
      = .error (.reported (.faulty (reportH.relocate [Path.slash, 'r']))) := by
  have hrun : (resolve lineSettings (MemoryFiles.empty.addAll nestedScripts.entries).reader
      scriptH.path).outcome = .error (.reported (.faulty reportH)) := rfl
  have hbelow : StaysBelow lineSettings (MemoryFiles.empty.addAll nestedScripts.entries).reader
      scriptH.path := by
    intro f hf hpath
    have htrace : extractions (resolve lineSettings
        (MemoryFiles.empty.addAll nestedScripts.entries).reader scriptH.path).trace
        = [scriptH.path, scriptD.path] := rfl
    rw [htrace] at hpath
    rcases List.mem_cons.1 hpath with hpath | hpath
    · obtain rfl : f = scriptH := hf.eq_of_path_eq rfl hpath
      exact asksBelow_of_parses ⟨rfl, rfl⟩ (by decide)
    · obtain rfl : f = scriptD := hf.eq_of_path_eq rfl (List.mem_singleton.1 hpath)
      exact asksBelow_of_parses ⟨rfl, rfl⟩ (by decide)
  have hroot : IsBase [Path.slash, 'r'] := by decide
  have hmoved := resolve_relocate hroot (by decide) (by decide) hbelow
  rwa [hrun] at hmoved

end ImportClosure.Resolution
