import ImportClosure.Proofs.Closure
/-!
A result as the storage of another run.

What a run returns is all that a run needs: over a storage in memory that holds the result and
nothing else, a second run returns the result again, in the same order
(`resolve_self_contained`). The two storages agree on every path that the first run asks for.
A path it finds a text at is in the result, with that text; a path it asks for in vain is not in
the result, since the result only holds what was there to be read. So the imports of every file
of the result lead to the same files in both storages, the result is the breadth-first order of
the reachable files in both, and there is nothing to report in either.

Nothing is assumed of the first storage, which may be infinite, or of the extractors, which may
fail on texts that the run does not come across.
-/

namespace ImportClosure.Resolution

variable {s : Settings} {r : Reader} {e f : SourceFile} {entrypoint : Text}
variable {order : List SourceFile} {files : OrderedMap Text Text}

/-! ## What a successful run has done -/

theorem exists_isEntry_of_ok (h : (resolve s r entrypoint).outcome = .ok files) :
    ∃ e, IsEntry r entrypoint e := by
  rcases isEntry_or_refused s r entrypoint with he | ⟨_, heq⟩ | ⟨_, _, _, _, heq⟩
  · exact he
  · rw [heq] at h
    exact absurd h nofun
  · rw [heq] at h
    exact absurd h nofun

/-- A run has gone through these files from `e` on, and all is well. -/
structure Succeeds (s : Settings) (r : Reader) (e : SourceFile) (order : List SourceFile) :
    Prop where
  /-- The files are the reachable ones, in breadth-first order. -/
  breadthFirst : BreadthFirst (importedFiles s r) e order
  /-- Each of them is sound. -/
  sound : ∀ f ∈ order, Sound s r f
  /-- They are not too many. -/
  not_over : ¬ (1 < order.length ∧ exceeds s.maxFiles order.length = true)

theorem verdict_eq_ok_of_sound (he : IsEntry r entrypoint e) (h : Succeeds s r e order) :
    verdict s r e order = .ok (.ofList (order.map SourceFile.entry)) := by
  rw [verdict_eq_ok_iff]
  refine ⟨?_, rfl⟩
  rw [(accounts_order he h.breadthFirst).hasFaults_eq_false_iff]
  exact fun f hf => (sound_iff_examined (h.sound f hf).looked).1 (h.sound f hf)

/-- A result lists the files that the run has gone through. -/
theorem exists_succeeds_of_ok (he : IsEntry r entrypoint e)
    (h : (resolve s r entrypoint).outcome = .ok files) :
    ∃ order, Succeeds s r e order ∧ files = .ofList (order.map SourceFile.entry) := by
  have hends := resolve_ends (s := s) he
  generalize resolve s r entrypoint = x at hends h
  cases hends with
  | drained hw hq =>
    rename_i done w
    rw [hw.finish_outcome hq he.stored, verdict_eq_ok_iff] at h
    have ho := hw.breadthFirst hq
    have hclean := (accounts_order he ho).hasFaults_eq_false_iff.1 h.1
    refine ⟨done, ⟨ho, ?_, hw.not_over hq⟩, h.2.symm⟩
    exact fun f hf => (sound_iff_examined (hw.looked f hf)).2 (hclean f hf)
  | overflowed _ => exact absurd h nofun
  | unencodable _ _ => exact absurd h nofun
  | unfinished _ _ _ => exact absurd h nofun

/-- Conversely, a run over a finite storage succeeds if all is well. -/
theorem resolve_eq_ok_of_succeeds (hr : r.IsFinite) (he : IsEntry r entrypoint e)
    (h : Succeeds s r e order) :
    (resolve s r entrypoint).outcome = .ok (.ofList (order.map SourceFile.entry)) := by
  rw [resolve_outcome_of_looked (fun f hf => (h.sound f hf).looked) hr he h.breadthFirst,
    if_neg h.not_over]
  exact verdict_eq_ok_of_sound he h

/-! ## The storage of the result -/

/-- The files of an order in memory. -/
def memoryOf (order : List SourceFile) : MemoryFiles :=
  MemoryFiles.empty.addAll (order.map SourceFile.entry)

namespace Succeeds

theorem isNormal (he : IsEntry r entrypoint e) (h : Succeeds s r e order) :
    ∀ f ∈ order, Path.IsNormal f.path :=
  fun _ hf => ((mem_order_iff h.breadthFirst).1 hf).isNormal he.isNormal

/-- The storage of the result has the files of the result, and no others. -/
theorem read_memoryOf_iff (he : IsEntry r entrypoint e) (h : Succeeds s r e order)
    {path content : Text} (hp : Path.IsNormal path) :
    (memoryOf order).reader.read path = .ok content
      ↔ (path, content) ∈ order.map SourceFile.entry := by
  have hentries := entries_ofList (nodup_order_paths he h.breadthFirst)
  have hnormal : ∀ p ∈ (OrderedMap.ofList (order.map SourceFile.entry)).keys,
      Path.IsNormal p := by
    intro p hp
    rw [keys_of_entries_eq hentries] at hp
    obtain ⟨f, hf, rfl⟩ := List.mem_map.1 hp
    exact h.isNormal he f hf
  have hfiles := MemoryFiles.files_addAll_entries hnormal
  rw [hentries] at hfiles
  have hget : (memoryOf order).files.get? path = some content
      ↔ (path, content) ∈ order.map SourceFile.entry := by
    unfold memoryOf
    rw [hfiles, OrderedMap.get?_eq_some_iff, hentries]
  exact (MemoryFiles.read_eq_ok_iff hp).trans hget

/-- The two storages agree on a path without a text, and on the path of a file of the result. -/
theorem agree (he : IsEntry r entrypoint e) (h : Succeeds s r e order) {path : Text}
    (hp : Path.IsNormal path)
    (hasked : (∀ content, r.read path ≠ .ok content) ∨ ∃ f ∈ order, f.path = path) :
    r.Agree (memoryOf order).reader path := by
  intro content
  rw [h.read_memoryOf_iff he hp, mem_entries_iff he h.breadthFirst]
  constructor
  · exact fun hread => hread.2
  · intro hread
    rcases hasked with hnone | ⟨f, hf, hpath⟩
    · exact absurd hread (hnone content)
    · exact ⟨⟨f, (mem_order_iff h.breadthFirst).1 hf, hpath⟩, hread⟩

/-- A specifier leads to the same file in both storages. -/
theorem find?_memoryOf (he : IsEntry r entrypoint e) (h : Succeeds s r e order)
    (hf : f ∈ order) {v : Variant} {m : Specifiers} (hparses : Parses s f v m) {t : Text}
    (ht : t ∈ m.files) :
    Candidate.find? (memoryOf order).reader v
        (Candidate.ofSpecifier (Path.directory f.path) t)
      = Candidate.find? r v (Candidate.ofSpecifier (Path.directory f.path) t) := by
  apply Candidate.find?_congr
  intro q hq
  apply h.agree he
  · exact Candidate.isNormal_of_mem_attempts (Candidate.isNormal_ofSpecifier _ _)
      (Candidate.mem_attempts_of_mem_asked hq)
  · -- the first run asked for `q`: in vain, or it went on with the file there
    rcases Candidate.unreadable_or_find?_of_mem_asked hq with hnone | ⟨g, hg, hpath⟩
    · exact Or.inl hnone
    · have himports : g ∈ importedFiles s r f := mem_importedFiles.2 ⟨v, m, hparses, t, ht, hg⟩
      exact Or.inr ⟨g, h.breadthFirst.next_mem hf himports, hpath⟩

theorem importedFiles_memoryOf (he : IsEntry r entrypoint e) (h : Succeeds s r e order)
    (hf : f ∈ order) : importedFiles s (memoryOf order).reader f = importedFiles s r f := by
  obtain ⟨v, m, hparses, _, _⟩ := h.sound f hf
  rw [importedFiles_of_parses hparses, importedFiles_of_parses hparses]
  exact List.filterMap_congr fun t ht => h.find?_memoryOf he hf hparses ht

/-- A file of the result is sound over the storage of the result. -/
theorem sound_memoryOf (he : IsEntry r entrypoint e) (h : Succeeds s r e order)
    (hf : f ∈ order) : Sound s (memoryOf order).reader f := by
  obtain ⟨v, m, hparses, hpackages, hfiles⟩ := h.sound f hf
  refine ⟨v, m, hparses, hpackages, ?_⟩
  intro t ht
  -- a specifier that leads nowhere in memory would have led nowhere before
  by_contra hnone
  have hfind := Candidate.find?_eq_none_iff.2
    (fun q hq content hread => hnone ⟨q, hq, content, hread⟩)
  rw [h.find?_memoryOf he hf hparses ht, Candidate.find?_eq_none_iff] at hfind
  obtain ⟨q, hq, content, hread⟩ := hfiles t ht
  exact hfind q hq content hread

/-- All is well over the storage of the result, too. -/
theorem restrict (he : IsEntry r entrypoint e) (h : Succeeds s r e order) :
    Succeeds s (memoryOf order).reader e order where
  breadthFirst := h.breadthFirst.congr fun _ hf => h.importedFiles_memoryOf he hf
  sound := fun _ hf => h.sound_memoryOf he hf
  not_over := h.not_over

theorem isEntry_memoryOf (he : IsEntry r entrypoint e) (h : Succeeds s r e order) :
    IsEntry (memoryOf order).reader entrypoint e := by
  refine ⟨?_, he.2⟩
  rw [← he.path_eq, Candidate.readable?_congr (h.agree he he.isNormal
    (Or.inr ⟨e, h.breadthFirst.start_mem, rfl⟩))]
  exact he.stored

end Succeeds

/-- **Self-containment.** Over a storage that holds the result of a run and nothing else, the run
gives the same result. -/
theorem resolve_self_contained (h : (resolve s r entrypoint).outcome = .ok files) :
    (resolve s (MemoryFiles.empty.addAll files.entries).reader entrypoint).outcome
      = .ok files := by
  obtain ⟨e, he⟩ := exists_isEntry_of_ok h
  obtain ⟨order, hsucceeds, rfl⟩ := exists_succeeds_of_ok he h
  rw [entries_ofList (nodup_order_paths he hsucceeds.breadthFirst)]
  exact resolve_eq_ok_of_succeeds (MemoryFiles.isFinite_reader _)
    (hsucceeds.isEntry_memoryOf he) (hsucceeds.restrict he)

theorem scripts_self_contained :
    (resolve lineSettings (MemoryFiles.empty.addAll
        (OrderedMap.ofList [scriptA.entry, scriptB.entry]).entries).reader scriptA.path).outcome
      = .ok (.ofList [scriptA.entry, scriptB.entry]) :=
  have hrun : (resolve lineSettings scripts.reader scriptA.path).outcome
      = .ok (.ofList [scriptA.entry, scriptB.entry]) := rfl
  resolve_self_contained hrun

end ImportClosure.Resolution
