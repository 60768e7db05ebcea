import ImportClosure.Proofs.Rounds
/-!
Every run comes to its end.

Over a storage with finitely many readable paths the loop ends for every import graph, with cycles,
files that import themselves or many spellings of one path: each round takes a path from the queue
that no other round takes, and all of them can be read (`resolve_terminates`). The bound that
`resolve` puts on the rounds is therefore never what ends them.
-/

namespace ImportClosure.Resolution

variable {s : Settings} {r : Reader} {e : SourceFile} {entrypoint : Text}
variable {last : Walk} {taken queued : List SourceFile} {x : Resolution}

/-- The normal paths that a storage can read. -/
def readablePaths (r : Reader) : Set Text :=
  {path | Path.IsNormal path ∧ ∃ content, r.read path = .ok content}

/-! ## Once per file -/

/-- What becomes of each file in a loop from the entry file `e` on that takes files from its queue
and adds files to it. -/
structure OncePerFile (r : Reader) (e : SourceFile) (taken queued : List SourceFile)
    (x : Resolution) : Prop where
  /-- No path is queued twice, that of the entry file included. -/
  queued_once : ((e :: queued).map SourceFile.path).Nodup
  /-- No path is taken from the queue twice. -/
  taken_once : (taken.map SourceFile.path).Nodup
  /-- What is taken was queued. -/
  taken_queued : ∀ f ∈ taken, f ∈ e :: queued
  /-- No path is asked for its specifiers twice. -/
  extracted_once : (extractions x.trace).Nodup
  /-- What is queued can be read. -/
  readable : ∀ f ∈ e :: queued, f.path ∈ readablePaths r
  /-- There are no more rounds than readable paths. -/
  rounds_le : (taken.length : ℕ∞) ≤ (readablePaths r).encard

/-- What is queued is in the storage, at a normal path. -/
theorem Loop.stored (he : IsEntry r entrypoint e)
    (h : Loop s r (start e) taken queued last x) :
    ∀ f ∈ e :: queued, Candidate.Stored r f ∧ Path.IsNormal f.path := by
  intro f hf
  rcases List.mem_cons.1 hf with rfl | hf
  · exact ⟨he.stored, he.isNormal⟩
  · obtain ⟨g, hg⟩ := h.exists_imports hf
    exact ⟨hg.stored, hg.isNormal⟩

theorem Loop.readable (he : IsEntry r entrypoint e)
    (h : Loop s r (start e) taken queued last x) :
    ∀ f ∈ e :: queued, f.path ∈ readablePaths r := by
  intro f hf
  obtain ⟨hstored, hnormal⟩ := h.stored he f hf
  exact ⟨hnormal, f.content, hstored.read⟩

theorem length_le_encard {files : List SourceFile} {paths : Set Text}
    (hn : (files.map SourceFile.path).Nodup) (hp : ∀ f ∈ files, f.path ∈ paths) :
    (files.length : ℕ∞) ≤ paths.encard := by
  rw [← encard_paths hn]
  refine Set.encard_le_encard ?_
  rintro path ⟨f, hf, rfl⟩
  exact hp f hf

theorem Loop.oncePerFile (he : IsEntry r entrypoint e)
    (h : Loop s r (start e) taken queued last x) : OncePerFile r e taken queued x := by
  have htakenQueued : taken <+: e :: queued := h.taken_prefix
  have hqueued : ((e :: queued).map SourceFile.path).Nodup := h.nodup_queued
  have htaken : (taken.map SourceFile.path).Nodup :=
    hqueued.sublist (htakenQueued.sublist.map SourceFile.path)
  have hextractions : extractions x.trace = grammarPaths taken := h.extractions_eq
  refine ⟨hqueued, htaken, fun _ hf => htakenQueued.subset hf, ?_, h.readable he, ?_⟩
  · rw [hextractions]
    exact htaken.sublist (List.filter_sublist.map SourceFile.path)
  · exact length_le_encard htaken fun f hf => h.readable he f (htakenQueued.subset hf)

/-- A file is asked for its specifiers, or its extension tells no grammar. -/
theorem length_grammarPaths (files : List SourceFile) :
    (grammarPaths files).length + files.countP (·.variant.isNone) = files.length := by
  unfold grammarPaths
  rw [List.length_map, ← List.countP_eq_length_filter,
    List.length_eq_countP_add_countP (fun f : SourceFile => f.variant.isSome)]
  refine congrArg _ (List.countP_congr fun f _ => ?_)
  simp

/-! ## Runs without an entry file -/

/-- Where there is no entry file a run ends at once. -/
theorem resolve_of_not_isEntry (h : ∀ e, ¬ IsEntry r entrypoint e) :
    ((resolve s r entrypoint).outcome = .error (.reported (.unsupportedEntrypoint entrypoint))
        ∨ ∃ why, (resolve s r entrypoint).outcome
          = .error (.reported (.unreadableEntrypoint entrypoint why)))
      ∧ extractions (resolve s r entrypoint).trace = [] := by
  rcases isEntry_or_refused s r entrypoint with ⟨e, he⟩ | ⟨_, heq⟩ | ⟨_, why, _, _, heq⟩
  · exact absurd he (h e)
  · rw [heq]
    exact ⟨Or.inl rfl, rfl⟩
  · rw [heq]
    exact ⟨Or.inr ⟨_, rfl⟩, rfl⟩

/-! ## Runs with an entry file -/

theorem resolve_ne_unfinished (hr : r.IsFinite) (he : IsEntry r entrypoint e) :
    (resolve s r entrypoint).outcome ≠ .error .unfinished := by
  rcases resolve_ends_of_isFinite (s := s) hr he with
    ⟨done, _, _, _, hout⟩ | ⟨_, hout⟩ | ⟨_, _, _, _, hout⟩
  · rw [hout]
    unfold verdict
    split <;> exact nofun
  · rw [hout]
    exact nofun
  · rw [hout]
    exact nofun

theorem exists_loop_resolve (s : Settings) (hr : r.IsFinite) (he : IsEntry r entrypoint e) :
    ∃ taken queued last, Loop s r (start e) taken queued last (resolve s r entrypoint) := by
  have hne := resolve_ne_unfinished (s := s) hr he
  rw [he.resolve_eq] at hne ⊢
  exact (exists_loop s r r.paths.length (start e)).resolve_left hne

/-- Rounds enough to end are enough. -/
theorem resolve_eq_run {n : Nat} (hr : r.IsFinite) (he : IsEntry r entrypoint e)
    (h : (run s r n (start e)).outcome ≠ .error .unfinished) :
    resolve s r entrypoint = run s r n (start e) := by
  obtain ⟨_, _, _, hloop⟩ := exists_loop_resolve s hr he
  obtain ⟨_, _, _, hloop'⟩ := (exists_loop s r n (start e)).resolve_left h
  exact hloop.unique hloop'

/-- In a loop that does not fail, every file visited is asked for its specifiers or has none to be
asked for. -/
theorem Loop.extractions_or_failed (h : Loop s r (start e) taken queued last x) :
    (∃ path, x.outcome = .error (.reported (.limitExceeded path s.maxFiles)))
      ∨ (¬ s.Total ∧ ∃ why, x.outcome = .error (.unencodable why))
      ∨ (extractions x.trace).length + taken.countP (·.variant.isNone)
          = last.findings.size := by
  rcases h.complete_or_failed with ⟨htaken, _, _, hkeys⟩ | hlimit | ⟨why, f, hout, hx⟩
  · refine Or.inr (Or.inr ?_)
    have hextractions : extractions x.trace = grammarPaths taken := h.extractions_eq
    have hsize : last.findings.size = taken.length := by
      have hlength : last.findings.size = last.findings.files.keys.length :=
        (List.length_map _).symm
      rw [hlength, hkeys, htaken, List.length_append, List.length_append, List.length_map]
      rfl
    rw [hextractions, length_grammarPaths, hsize]
  · exact Or.inl hlimit
  · refine Or.inr (Or.inl ⟨?_, why, hout⟩)
    intro hs
    rw [examine_eq_ok hs f] at hx
    exact absurd hx nofun

/-- **Termination.** Over a finite storage the loop ends, and any bound that allows its rounds
gives the same result. Each file is queued, taken and asked for its specifiers once at most, in as
many rounds as there are readable paths at most, and unless the run fails half-way the files visited
are those asked for their specifiers and those whose extension tells no grammar. Without an entry
file there is no loop. -/
theorem resolve_terminates (hr : r.IsFinite) :
    (∀ e, IsEntry r entrypoint e → ∃ taken queued last,
        Loop s r (start e) taken queued last (resolve s r entrypoint)
          ∧ (∀ n, taken.length ≤ n → run s r n (start e) = resolve s r entrypoint)
          ∧ OncePerFile r e taken queued (resolve s r entrypoint)
          ∧ ((∃ path, (resolve s r entrypoint).outcome
                = .error (.reported (.limitExceeded path s.maxFiles)))
            ∨ (¬ s.Total ∧ ∃ why, (resolve s r entrypoint).outcome = .error (.unencodable why))
            ∨ (extractions (resolve s r entrypoint).trace).length
                + taken.countP (·.variant.isNone) = last.findings.size))
      ∧ ((∀ e, ¬ IsEntry r entrypoint e) →
          ((resolve s r entrypoint).outcome
                = .error (.reported (.unsupportedEntrypoint entrypoint))
              ∨ ∃ why, (resolve s r entrypoint).outcome
                = .error (.reported (.unreadableEntrypoint entrypoint why)))
            ∧ extractions (resolve s r entrypoint).trace = []) := by
  refine ⟨?_, resolve_of_not_isEntry⟩
  intro e he
  obtain ⟨taken, queued, last, h⟩ := exists_loop_resolve s hr he
  exact ⟨taken, queued, last, h, fun _ hn => h.run_eq hn, h.oncePerFile he,
    h.extractions_or_failed⟩

/-- The scripts `a.js` and `b.js`, which import each other, are looked at once each. -/
theorem scripts_terminate :
    ∃ taken queued, OncePerFile scripts.reader scriptA taken queued
        (resolve lineSettings scripts.reader scriptA.path)
      ∧ extractions (resolve lineSettings scripts.reader scriptA.path).trace
          = [scriptA.path, scriptB.path] := by
  obtain ⟨taken, queued, _, _, _, honce, _⟩ :=
    (resolve_terminates scripts.isFinite_reader).1 scriptA isEntry_scriptA
  exact ⟨taken, queued, honce, rfl⟩

end ImportClosure.Resolution
