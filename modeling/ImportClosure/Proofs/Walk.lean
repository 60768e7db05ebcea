import ImportClosure.Proofs.Findings
/-!
The walk, against the import graph.

The state of a walk is described by the list of files taken from the queue so far (`Underway`):
together with the queue that list is, at every moment, the breadth-first list of what those files
mention, and the findings are the ledger of that list. One step keeps this (`Underway.step`), so
a walk that comes to its end has gone through the breadth-first order of the reachable files, and
its outcome is the one that this order prescribes (`verdict`). A walk ends otherwise in three
ways only, each of which says something about the graph; `Ends` lists them all.
-/

namespace ImportClosure

/-- The path of a file with its text, as the collector stores it. -/
def SourceFile.entry (f : SourceFile) : Text × Text := (f.path, f.content)

namespace Resolution

open Candidate (Stored)

variable {s : Settings} {r : Reader} {e file : SourceFile} {entrypoint : Text}

/-! ## Storing and queueing files -/

theorem keys_of_entries_eq {m : OrderedMap Text Text} {visited : List SourceFile}
    (h : m.entries = visited.map SourceFile.entry) : m.keys = visited.map SourceFile.path := by
  unfold OrderedMap.keys
  rw [h, List.map_map]
  rfl

/-- Among files of one storage, a path is visited exactly if its file is. -/
theorem mem_keys_iff_mem {m : OrderedMap Text Text} {visited : List SourceFile} {f : SourceFile}
    (h : m.entries = visited.map SourceFile.entry) (hv : ∀ g ∈ visited, Stored r g)
    (hf : Stored r f) : f.path ∈ m.keys ↔ f ∈ visited := by
  rw [keys_of_entries_eq h, List.mem_map]
  constructor
  · rintro ⟨g, hg, hp⟩
    rw [← (hv g hg).eq_of_path_eq hf hp]
    exact hg
  · exact fun hm => ⟨f, hm, rfl⟩

theorem entries_addFile {c : Collector} {visited : List SourceFile} {f : SourceFile}
    (h : c.files.entries = visited.map SourceFile.entry) (hf : f.path ∉ c.files.keys) :
    (c.addFile f.path f.content).files.entries = (visited ++ [f]).map SourceFile.entry := by
  unfold Collector.addFile
  rw [OrderedMap.insertIfNew_of_not_mem hf, OrderedMap.entries_insert_of_not_mem hf, h,
    List.map_append]
  rfl

theorem exceeds_zero (n : Nat) : exceeds 0 n = false := rfl

/-- The walk `w'` is `w` with `new` files stored after the `visited` ones, and queued. -/
structure Admits (visited new : List SourceFile) (w w' : Walk) : Prop where
  files : w'.findings.files.entries = (visited ++ new).map SourceFile.entry
  findings : w'.findings = { w.findings with files := w'.findings.files }
  queue : w'.queue = w.queue ++ new

/-- A file is stored and queued first, and the new files after it. -/
theorem Admits.cons {visited new : List SourceFile} {w w' : Walk} {f : SourceFile}
    (h : Admits (visited ++ [f]) new
      { w with findings := w.findings.addFile f.path f.content, queue := w.queue ++ [f] } w') :
    Admits visited (f :: new) w w' where
  files := by
    rw [h.files, List.append_assoc]
    rfl
  findings := h.findings
  queue := by
    rw [h.queue, List.append_assoc]
    rfl

/-- Files are stored and queued in the order of first mention, up to the limit. -/
theorem enqueue_cases (limit : Int) (found : List SourceFile) {visited : List SourceFile}
    {w : Walk}
    (hw : w.findings.files.entries = visited.map SourceFile.entry)
    (hv : ∀ g ∈ visited, Stored r g) (hf : ∀ g ∈ found, Stored r g) (hn : visited.Nodup) :
    (∃ w' new, enqueue limit found w = .ok w' ∧ Admits visited new w w'
        ∧ (visited ++ found).eraseDups = visited ++ new
        ∧ (new = [] ∨ exceeds limit (visited ++ new).length = false))
      ∨ ∃ new, enqueue limit found w
          = .error (.reported (.limitExceeded w.findings.entrypoint limit))
        ∧ new ≠ [] ∧ visited ++ new <+: (visited ++ found).eraseDups
        ∧ exceeds limit (visited ++ new).length = true := by
  -- each new file joins the visited ones, so these and the walk vary in the induction
  induction found generalizing visited w with
  | nil =>
    refine Or.inl ⟨w, [], rfl, ⟨?_, rfl, (List.append_nil _).symm⟩, ?_, Or.inl rfl⟩
    · rw [hw, List.append_nil]
    · rw [List.append_nil, eraseDups_of_nodup hn]
  | cons f found ih =>
    have hff := List.forall_mem_cons.1 hf
    have hmem : w.findings.hasFile f.path = true ↔ f ∈ visited :=
      OrderedMap.contains_iff.trans (mem_keys_iff_mem hw hv hff.1)
    unfold enqueue
    by_cases hvis : f ∈ visited
    · rw [if_pos (hmem.2 hvis)]
      -- a file visited before is no first occurrence
      have hskip : (visited ++ f :: found).eraseDups = (visited ++ found).eraseDups := by
        rw [List.append_cons, ← eraseDups_append_left,
          eraseDups_append_singleton_of_mem hvis, eraseDups_append_left]
      rw [hskip]
      exact ih hw hv hff.2 hn
    · rw [if_neg (fun h => hvis (hmem.1 h))]
      have hfiles := entries_addFile hw (fun h => hvis ((mem_keys_iff_mem hw hv hff.1).1 h))
      have hsize : (w.findings.addFile f.path f.content).size = (visited ++ [f]).length := by
        unfold Collector.size OrderedMap.size
        rw [hfiles, List.length_map]
      have hv' : ∀ g ∈ visited ++ [f], Stored r g :=
        List.forall_mem_append.2 ⟨hv, List.forall_mem_singleton.2 hff.1⟩
      have hn' : (visited ++ [f]).Nodup := by
        rw [← List.concat_eq_append]
        exact hn.concat hvis
      dsimp only
      -- `f` counts as visited from here on, before the limit is checked
      rw [hsize, List.append_cons visited f found]
      by_cases hlimit : exceeds limit (visited ++ [f]).length = true
      · rw [if_pos hlimit]
        refine Or.inr ⟨[f], rfl, List.cons_ne_nil _ _, ?_, hlimit⟩
        have hp := eraseDups_prefix (visited ++ [f]) found
        rwa [eraseDups_of_nodup hn'] at hp
      · rw [if_neg hlimit]
        rcases ih (w := ⟨w.findings.addFile f.path f.content, w.queue ++ [f], w.trace⟩)
          hfiles hv' hff.2 hn' with
          ⟨w', new, heq, hadmits, hdups, hnew⟩ | ⟨new, heq, hne, hp, hex⟩
        · refine Or.inl ⟨w', f :: new, heq, hadmits.cons, ?_, Or.inr ?_⟩
          · rw [hdups, List.append_assoc]
            rfl
          · rcases hnew with rfl | hnew
            -- nothing new after `f`: the check that `f` passed was the last one
            · simpa using hlimit
            · rw [List.append_cons]
              exact hnew
        · refine Or.inr ⟨f :: new, heq, List.cons_ne_nil _ _, ?_, ?_⟩
          · rw [List.append_cons]
            exact hp
          · rw [List.append_cons]
            exact hex

/-! ## One step -/

/-- The walk has taken the files `done` from its queue. -/
structure Underway (s : Settings) (r : Reader) (e : SourceFile) (done : List SourceFile)
    (w : Walk) : Prop where
  /-- The collector holds the files taken and the files queued, in this order. -/
  files : w.findings.files.entries = (done ++ w.queue).map SourceFile.entry
  /-- These are the files that were mentioned, each where it was first. -/
  order : done ++ w.queue = (e :: done.flatMap (importedFiles s r)).eraseDups
  /-- Only reachable files were found. -/
  reachable : ∀ f ∈ done ++ w.queue, Reachable s r e f
  /-- The files taken could be looked at. -/
  looked : ∀ f ∈ done, examine s r f = .ok (examined s r f)
  /-- The findings are those about the files taken. -/
  findings : w.findings = { ledger s r (.start e.path e.content) done with
    files := w.findings.files }
  /-- The limit was not exceeded when a file was found. -/
  within : (done ++ w.queue).length = 1
    ∨ exceeds s.maxFiles (done ++ w.queue).length = false

/-- More reachable files than the limit allows, the entry file and at least one more. -/
def Overflows (s : Settings) (r : Reader) (e : SourceFile) : Prop :=
  ∃ visited : List SourceFile, visited.Nodup ∧ (∀ f ∈ visited, Reachable s r e f)
    ∧ 1 < visited.length ∧ exceeds s.maxFiles visited.length = true

theorem underway_start (s : Settings) (r : Reader) (e : SourceFile) :
    Underway s r e [] (start e) where
  files := rfl
  order := (eraseDups_of_nodup (List.nodup_singleton e)).symm
  reachable := by
    intro f hf
    rw [List.mem_singleton.1 hf]
    exact Relation.ReflTransGen.refl
  looked := fun f hf => absurd hf List.not_mem_nil
  findings := rfl
  within := Or.inl rfl

namespace Underway

variable {done rest : List SourceFile} {w : Walk}

theorem nodup (h : Underway s r e done w) : (done ++ w.queue).Nodup := by
  rw [h.order]
  exact nodup_eraseDups _

theorem stored (h : Underway s r e done w) (he : Stored r e) :
    ∀ f ∈ done ++ w.queue, Stored r f :=
  fun f hf => (h.reachable f hf).stored he

theorem entrypoint_eq (h : Underway s r e done w) : w.findings.entrypoint = e.path := by
  rw [h.findings]
  exact ledger_entrypoint _ done

/-- What the next file brings, if the limit allows it. -/
theorem advance (h : Underway s r e done w) (hq : w.queue = file :: rest)
    (hfile : examine s r file = .ok (examined s r file)) {new : List SourceFile} {w' : Walk}
    (hw' : Admits (done ++ w.queue) new
      ⟨record file.path (examined s r file) w.findings, rest,
        w.trace ++ (examined s r file).trace⟩ w')
    (hdups : (done ++ w.queue ++ importedFiles s r file).eraseDups = done ++ w.queue ++ new)
    (hnew : new = [] ∨ exceeds s.maxFiles (done ++ w.queue ++ new).length = false) :
    Underway s r e (done ++ [file]) w' := by
  -- taking a file moves it from the head of the queue to the end of `done`
  have hqueue : done ++ [file] ++ w'.queue = done ++ w.queue ++ new := by
    rw [hw'.queue, hq]
    simp
  refine ⟨?_, ?_, ?_, ?_, ?_, ?_⟩
  · rw [hqueue]
    exact hw'.files
  · rw [hqueue, ← hdups, h.order, eraseDups_append_left, List.flatMap_append, List.cons_append]
    simp
  · rw [hqueue, ← hdups]
    intro f hf
    rcases List.mem_append.1 (List.mem_eraseDups.1 hf) with hf | hf
    · exact h.reachable f hf
    · have hfile : Reachable s r e file := h.reachable file (by rw [hq]; simp)
      exact hfile.tail (mem_importedFiles.1 hf)
  · intro f hf
    rcases List.mem_append.1 hf with hf | hf
    · exact h.looked f hf
    · rw [List.mem_singleton.1 hf]
      exact hfile
  · rw [hw'.findings, ledger_append_singleton]
    dsimp only
    -- what is recorded does not depend on the files stored, which differ
    rw [h.findings, record_with_files]
  · rw [hqueue]
    rcases hnew with rfl | hnew
    · rw [List.append_nil]
      exact h.within
    · exact Or.inr hnew

/-- A step takes the next file, or finds more files than the limit allows, or meets a text that
cannot be handed to the extractor. -/
theorem step_cases (he : Stored r e) (h : Underway s r e done w) (hq : w.queue = file :: rest) :
    (∃ w', step s r w file rest = .ok w' ∧ Underway s r e (done ++ [file]) w')
      ∨ (∃ trace, step s r w file rest
          = .error ⟨.reported (.limitExceeded e.path s.maxFiles), trace⟩ ∧ Overflows s r e)
      ∨ ∃ why trace, step s r w file rest = .error ⟨.unencodable why, trace⟩
        ∧ examine s r file = .error why := by
  have hfile : file ∈ done ++ w.queue := by
    rw [hq]
    simp
  have hfound : ∀ g ∈ (examined s r file).found, Reachable s r e g ∧ Stored r g := by
    intro g hg
    rw [examined_found] at hg
    have hi := mem_importedFiles.1 hg
    exact ⟨(h.reachable file hfile).tail hi, hi.stored⟩
  unfold step
  cases hx : examine s r file with
  | error why => exact Or.inr (Or.inr ⟨why, _, rfl, rfl⟩)
  | ok x =>
    have hxe : x = examined s r file := (examined_of_ok hx).symm
    subst hxe
    dsimp only
    have hfiles : (record file.path (examined s r file) w.findings).files.entries
        = (done ++ w.queue).map SourceFile.entry := by
      rw [record_files]
      exact h.files
    rcases enqueue_cases s.maxFiles (examined s r file).found
      (w := ⟨record file.path (examined s r file) w.findings, rest,
        w.trace ++ (examined s r file).trace⟩)
      hfiles (h.stored he) (fun g hg => (hfound g hg).2) h.nodup with
      ⟨w', new, heq, hadmits, hdups, hnew⟩ | ⟨new, heq, hne, hp, hex⟩
    · rw [heq]
      rw [examined_found] at hdups
      exact Or.inl ⟨w', rfl, h.advance hq hx hadmits hdups hnew⟩
    · rw [heq]
      dsimp only
      rw [record_entrypoint, h.entrypoint_eq]
      refine Or.inr (Or.inl ⟨_, rfl, done ++ w.queue ++ new, ?_, ?_, ?_, hex⟩)
      · exact (nodup_eraseDups _).sublist hp.sublist
      · intro f hf
        rcases List.mem_append.1 (List.mem_eraseDups.1 (hp.subset hf)) with hf | hf
        · exact h.reachable f hf
        · exact (hfound f hf).1
      · -- the entry file is among the visited ones, so there are two at least
        have hlen := List.length_pos_iff.2 (List.ne_nil_of_mem hfile)
        have hlen' := List.length_pos_iff.2 hne
        rw [List.length_append]
        omega

/-- A walk with an empty queue has gone through the breadth-first order. -/
theorem breadthFirst (h : Underway s r e done w) (hq : w.queue = []) :
    BreadthFirst (importedFiles s r) e done where
  order_eq := by
    have horder := h.order
    rwa [hq, List.append_nil] at horder
  reached := by
    intro f hf
    have hr := h.reachable f (List.mem_append_left _ hf)
    rwa [reachable_eq] at hr

end Underway

/-! ## Whole runs -/

/-- The ways in which a run that takes at most `bound` files from its queue may end. -/
inductive Ends (s : Settings) (r : Reader) (e : SourceFile) (bound : Nat) : Resolution → Prop
  /-- The queue is empty. -/
  | drained {done : List SourceFile} {w : Walk} (h : Underway s r e done w) (hq : w.queue = []) :
    Ends s r e bound (finish w)
  /-- There are too many files. -/
  | overflowed {trace : List Event} (h : Overflows s r e) :
    Ends s r e bound ⟨.error (.reported (.limitExceeded e.path s.maxFiles)), trace⟩
  /-- The text of a reachable file cannot be handed to the extractor. -/
  | unencodable {f : SourceFile} {why : Text.Unencodable} {trace : List Event}
    (hf : Reachable s r e f) (h : examine s r f = .error why) :
    Ends s r e bound ⟨.error (.unencodable why), trace⟩
  /-- So many files were taken, and there are more. -/
  | unfinished {done : List SourceFile} {w : Walk} {trace : List Event}
    (h : Underway s r e done w) (hq : w.queue ≠ []) (hlen : done.length = bound) :
    Ends s r e bound ⟨.error .unfinished, trace⟩

theorem run_of_nil {n : Nat} {w : Walk} (hq : w.queue = []) : run s r n w = finish w := by
  unfold run
  rw [hq]

theorem run_zero_of_cons {w : Walk} {rest : List SourceFile} (hq : w.queue = file :: rest) :
    run s r 0 w = ⟨.error .unfinished, w.trace⟩ := by
  unfold run
  rw [hq]

theorem run_succ_of_cons {n : Nat} {w : Walk} {rest : List SourceFile}
    (hq : w.queue = file :: rest) :
    run s r (n + 1) w =
      match step s r w file rest with
      | .error stop => ⟨.error stop.failure, stop.trace⟩
      | .ok w => run s r n w := by
  obtain ⟨findings, queue, trace⟩ := w
  obtain rfl : queue = file :: rest := hq
  rfl

theorem run_ends (he : Stored r e) {n bound : Nat} {done : List SourceFile} {w : Walk}
    (h : Underway s r e done w) (hn : done.length + n = bound) :
    Ends s r e bound (run s r n w) := by
  -- `done` grows as the fuel shrinks; `Underway` is the invariant
  induction n generalizing done w with
  | zero =>
    cases hq : w.queue with
    | nil =>
      rw [run_of_nil hq]
      exact Ends.drained h hq
    | cons file rest =>
      rw [run_zero_of_cons hq]
      exact Ends.unfinished h (by rw [hq]; exact List.cons_ne_nil _ _) hn
  | succ n ih =>
    cases hq : w.queue with
    | nil =>
      rw [run_of_nil hq]
      exact Ends.drained h hq
    | cons file rest =>
      rw [run_succ_of_cons hq]
      rcases h.step_cases he hq with ⟨w', hstep, h'⟩ | ⟨trace, hstep, hover⟩ |
        ⟨why, trace, hstep, hwhy⟩
      · rw [hstep]
        apply ih h'
        rw [List.length_append, List.length_singleton]
        omega
      · rw [hstep]
        exact Ends.overflowed hover
      · rw [hstep]
        refine Ends.unencodable (h.reachable file ?_) hwhy
        rw [hq]
        exact List.mem_append_right _ List.mem_cons_self

theorem resolve_ends (he : IsEntry r entrypoint e) :
    Ends s r e r.paths.length (resolve s r entrypoint) := by
  rw [he.resolve_eq]
  exact run_ends he.stored (underway_start s r e) (Nat.zero_add _)

end Resolution

end ImportClosure
