import ImportClosure.Value.Basic
import Mathlib.Tactic.SplitIfs
/-!
The keys of a mapping.

A mapping is made entry by entry, and an entry whose key is there already takes the place of that
entry. So no text is the key of two entries (`Value.KeysDiffer`).
-/

namespace ImportClosure

namespace Value

/-- No text is the key of two entries. -/
def KeysDiffer (entries : List (Value × Value)) : Prop :=
  entries.Pairwise fun a b => ∀ t : Text, a.1 = .text t → b.1 ≠ .text t

variable {k v : Value} {e : Value × Value} {entries : List (Value × Value)}

theorem fst_of_mem_insertEntry (h : e ∈ insertEntry k v entries) :
    e.1 = k ∨ ∃ e' ∈ entries, e.1 = e'.1 := by
  induction entries with
  | nil =>
    rw [insertEntry, List.mem_singleton] at h
    exact Or.inl (congrArg Prod.fst h)
  | cons first rest ih =>
    rw [insertEntry] at h
    split_ifs at h with hsame
    · rcases List.mem_cons.1 h with rfl | h
      · exact Or.inr ⟨first, List.mem_cons_self, rfl⟩
      · exact Or.inr ⟨e, List.mem_cons_of_mem _ h, rfl⟩
    · rcases List.mem_cons.1 h with rfl | h
      · exact Or.inr ⟨e, List.mem_cons_self, rfl⟩
      · obtain hk | ⟨e', he', hkey⟩ := ih h
        · exact Or.inl hk
        · exact Or.inr ⟨e', List.mem_cons_of_mem _ he', hkey⟩

/-- An entry that is given a value in place or at the end brings no text a second time. -/
theorem KeysDiffer.insertEntry (h : KeysDiffer entries) (k v : Value) :
    KeysDiffer (Value.insertEntry k v entries) := by
  induction entries with
  | nil => exact List.pairwise_singleton _ _
  | cons first rest ih =>
    obtain ⟨hfirst, hrest⟩ := List.pairwise_cons.1 h
    rw [Value.insertEntry]
    split_ifs with hsame
    · exact List.pairwise_cons.2 ⟨hfirst, hrest⟩
    · -- a text that is a key in front would have been found to be the same key
      refine List.pairwise_cons.2 ⟨?_, ih hrest⟩
      intro e he t hfirstKey hkey
      rcases fst_of_mem_insertEntry he with hk | ⟨e', he', hk⟩
      · rw [hfirstKey, ← hk, hkey] at hsame
        exact hsame (by simp [sameKey])
      · exact hfirst e' he' t hfirstKey (hk.symm.trans hkey)

/-- What is put in entry by entry brings no text twice. -/
theorem KeysDiffer.foldl_insertEntry {made : List (Value × Value)} (h : KeysDiffer entries) :
    KeysDiffer (made.foldl (fun done e => Value.insertEntry e.1 e.2 done) entries) := by
  induction made generalizing entries with
  | nil => exact h
  | cons e made ih => exact ih (h.insertEntry e.1 e.2)

theorem KeysDiffer.perm {entries' : List (Value × Value)} (h : KeysDiffer entries)
    (hperm : entries'.Perm entries) : KeysDiffer entries' := by
  refine (hperm.pairwise_iff ?_).2 h
  intro a b hab t hb ha
  exact hab t ha hb

end Value

end ImportClosure
