import ImportClosure.Proofs.DiskLookup
/-!
Files that are written.

What is put at the place of a path is found there afterwards, because nothing on the way to a place
is at the place itself, unless there is a directory (`follow_put`). So what is written to a file can
be read (`find_write`), and what is added to a file stands after what was in it (`append_of_find`).
-/

namespace ImportClosure.Disk

open ImportClosure.Path (dot)

variable {d d' : Disk} {place target names : List Text} {path : Text} {before content : Bytes}
variable {e : DiskEntry} {fault : DiskFault}

/-! ## Entries that are put -/

theorem get?_put (d : Disk) (place place' : List Text) (e : DiskEntry) :
    (d.put place e).entries.get? place'
      = if place = place' then some e else d.entries.get? place' :=
  OrderedMap.get?_insert _ _ _ _

/-- What is put at the end of the way is not on the way, unless there is a directory. -/
theorem follow_put (hfile : d.entries.get? target ≠ some .directory)
    (h : d.follow place names = .ok target) : (d.put target e).follow place names = .ok target := by
  induction names generalizing place with
  | nil => exact h
  | cons c names ih =>
    by_cases hc : c = [dot, dot]
    · rw [hc, follow_cons_dots] at h ⊢
      exact ih h
    · rw [follow_cons_name hc] at h ⊢
      split at h
      case isTrue => cases h
      case isFalse hlen =>
        rw [if_neg hlen]
        cases names with
        | nil => exact h
        | cons c' names =>
          cases hentry : d.entries.get? (place ++ [c]) with
          | none =>
            rw [hentry] at h
            cases h
          | some entry =>
            rw [hentry] at h
            cases entry with
            | file => cases h
            | directory =>
              -- what is passed through is a directory, so it is not what was put
              have hother : target ≠ place ++ [c] := fun heq => hfile (heq ▸ hentry)
              rw [get?_put, if_neg hother, hentry]
              exact ih h

theorem locate_put (hfile : d.entries.get? place ≠ some .directory)
    (h : d.locate path = .ok place) : (d.put place e).locate path = .ok place := by
  unfold locate at h ⊢
  split_ifs at h ⊢
  all_goals exact follow_put hfile h

/-- What is put at the place of a path is found there. -/
theorem find_put (hfile : d.entries.get? place ≠ some .directory)
    (h : d.locate path = .ok place) : (d.put place e).find path = .ok e := by
  unfold find
  rw [locate_put hfile h]
  dsimp only
  rw [get?_put, if_pos rfl]

/-! ## Whole files -/

theorem write_eq_ok_iff :
    d.write path content = .ok d' ↔ ∃ place, d.locate path = .ok place
      ∧ d.entries.get? place ≠ some .directory ∧ d' = d.put place (.file content) := by
  unfold write
  cases d.locate path with
  | error fault => simp
  | ok place =>
    dsimp only
    split
    · rename_i hdirectory
      simp [hdirectory]
    · rename_i hfile
      constructor
      · intro h
        exact ⟨place, rfl, hfile, (Except.ok.inj h).symm⟩
      · rintro ⟨_, h, -, rfl⟩
        rw [Except.ok.inj h]

/-- **What was written can be read.** -/
theorem find_write (h : d.write path content = .ok d') : d'.find path = .ok (.file content) := by
  obtain ⟨place, hlocate, hfile, rfl⟩ := write_eq_ok_iff.1 h
  exact find_put hfile hlocate

/-- A file cannot be written where the path leads nowhere, or to a directory. -/
theorem directory_of_write_error (h : d.write path content = .error fault) :
    ∀ place, d.locate path = .ok place → d.entries.get? place = some .directory := by
  intro place hlocate
  by_contra hfile
  have hok : d.write path content = .ok (d.put place (.file content)) :=
    write_eq_ok_iff.2 ⟨place, hlocate, hfile, rfl⟩
  rw [hok] at h
  cases h

/-! ## The end of a file -/

/-- What a path is found to be stands at its place. -/
theorem find_eq_ok_iff_locate :
    d.find path = .ok e ↔ ∃ place, d.locate path = .ok place ∧ d.entries.get? place = some e := by
  unfold find
  cases d.locate path with
  | error fault => simp
  | ok place =>
    cases hentry : d.entries.get? place with
    | none => simp [hentry]
    | some entry => simp [hentry]

/-- **What is added stands at the end.** -/
theorem append_of_find (h : d.find path = .ok (.file before)) (content : Bytes) : ∃ d',
    d.append path content = .ok d' ∧ d'.find path = .ok (.file (before ++ content)) := by
  obtain ⟨place, hlocate, hentry⟩ := find_eq_ok_iff_locate.1 h
  have hfile : d.entries.get? place ≠ some .directory := by
    rw [hentry]
    exact nofun
  refine ⟨d.put place (.file (before ++ content)), ?_, find_put hfile hlocate⟩
  unfold append
  rw [hlocate]
  dsimp only
  rw [hentry]

/-- A file to which something was added can be read. -/
theorem exists_find_of_append (h : d.append path content = .ok d') :
    ∃ before, d'.find path = .ok (.file (before ++ content)) := by
  unfold append at h
  cases hlocate : d.locate path with
  | error fault =>
    rw [hlocate] at h
    cases h
  | ok place =>
    rw [hlocate] at h
    dsimp only at h
    cases hentry : d.entries.get? place with
    | none =>
      -- the file is made, and was empty before
      rw [hentry] at h
      rw [← Except.ok.inj h]
      exact ⟨[], find_put (by rw [hentry]; exact nofun) hlocate⟩
    | some entry =>
      rw [hentry] at h
      cases entry with
      | directory => cases h
      | file before =>
        rw [← Except.ok.inj h]
        exact ⟨before, find_put (by rw [hentry]; exact nofun) hlocate⟩

end ImportClosure.Disk
