import ImportClosure.Proofs.Candidate
import ImportClosure.Proofs.OrderedMap
import ImportClosure.Storage.Memory
/-!
Files in memory, as a storage.

The files are kept by normal form, so a storage in memory is finite, and files that stand at
normal paths can be put into an empty one without a change: not even their order is lost. That
is what lets the result of one run be the storage of another.
-/

namespace ImportClosure.MemoryFiles

variable {m : MemoryFiles} {path content : Text}

/-! ## Reading -/

/-- A normal path finds the text that is kept under it. -/
theorem read_eq_ok_iff (h : Path.IsNormal path) :
    m.read path = .ok content ↔ m.files.get? path = some content := by
  have hnormal : Path.normalize path = path := h
  unfold read
  rw [hnormal]
  cases m.files.get? path with
  | none => simp
  | some t => simp

/-- There is one reason why a path cannot be read. -/
theorem read_eq_error {why : ReadFailure} (h : m.read path = .error why) :
    why = .noSuchFile path := by
  unfold read at h
  split at h
  · exact absurd h nofun
  · exact (Except.error.inj h).symm

theorem isFinite_reader (m : MemoryFiles) : m.reader.IsFinite := by
  intro path content hnormal hread
  exact OrderedMap.mem_keys_iff.2 ⟨content, (read_eq_ok_iff hnormal).1 hread⟩

/-! ## Filling -/

/-- Files at normal paths are kept under these paths. -/
theorem files_addAll {files : List (Text × Text)} (h : ∀ f ∈ files, Path.IsNormal f.1) :
    (m.addAll files).files = files.foldl (fun m f => m.insert f.1 f.2) m.files := by
  induction files generalizing m with
  | nil => rfl
  | cons f files ih =>
    have hf := List.forall_mem_cons.1 h
    have hnormal : Path.normalize f.1 = f.1 := hf.1
    have hadd : (m.add f.1 f.2).files = m.files.insert f.1 f.2 := by
      unfold add
      rw [hnormal]
    have hrest := ih (m := m.add f.1 f.2) hf.2
    rw [hadd] at hrest
    exact hrest

/-- **Files put into memory.** A map with normal paths comes back as it was. -/
theorem files_addAll_entries {files : OrderedMap Text Text}
    (h : ∀ path ∈ files.keys, Path.IsNormal path) : (empty.addAll files.entries).files = files := by
  apply OrderedMap.ext_entries
  rw [files_addAll (fun f hf => h f.1 (List.mem_map.2 ⟨f, hf, rfl⟩))]
  have hnodup : ((∅ : OrderedMap Text Text).keys ++ files.entries.map Prod.fst).Nodup :=
    files.nodup
  have hfold := OrderedMap.entries_foldl_insert hnodup
  rwa [OrderedMap.entries_empty, List.nil_append] at hfold

/-- A storage of a map with normal paths reads what the map has. -/
theorem read_addAll_entries_iff {files : OrderedMap Text Text}
    (h : ∀ path ∈ files.keys, Path.IsNormal path) (hp : Path.IsNormal path) :
    (empty.addAll files.entries).reader.read path = .ok content
      ↔ files.get? path = some content := by
  have hread : (empty.addAll files.entries).read path = .ok content
      ↔ (empty.addAll files.entries).files.get? path = some content := read_eq_ok_iff hp
  rwa [files_addAll_entries h] at hread

end ImportClosure.MemoryFiles
