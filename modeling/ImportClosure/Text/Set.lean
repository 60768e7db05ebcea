import ImportClosure.Text.Order
/-!
Finite sets of texts, kept as a strictly ascending list.

The list of a set is determined by its members, so whatever is built by inserting texts is the
same for every order and multiplicity of the insertions. That is what lets a result that is
reported in ascending order be compared by equality.
-/

namespace ImportClosure

/-! ## Ascending lists -/

/-- A list in which each text stands before the ones after it. -/
def Text.Ascending (ts : List Text) : Prop := ts.Pairwise (fun t u => Text.isBefore t u = true)

/-- Puts a text at its place in an ascending list, once. -/
def Text.insertAscending (t : Text) : List Text → List Text
  | [] => [t]
  | u :: us =>
    if Text.isBefore t u then t :: u :: us
    else if t = u then u :: us
    else u :: Text.insertAscending t us

theorem Text.mem_insertAscending {t v : Text} {us : List Text} :
    v ∈ Text.insertAscending t us ↔ v = t ∨ v ∈ us := by
  induction us with
  | nil => simp [Text.insertAscending]
  | cons u us ih =>
    unfold Text.insertAscending
    split
    · simp
    · split
      · rename_i h
        subst h
        simp
      · simp [ih]
        grind

theorem Text.ascending_insertAscending {t : Text} {us : List Text} (h : Text.Ascending us) :
    Text.Ascending (Text.insertAscending t us) := by
  induction us with
  | nil => exact List.pairwise_singleton _ _
  | cons u us ih =>
    obtain ⟨hu, hus⟩ := List.pairwise_cons.1 h
    unfold Text.insertAscending
    split
    · rename_i htu
      refine List.pairwise_cons.2 ⟨fun v hv => ?_, h⟩
      rcases List.mem_cons.1 hv with rfl | hv
      · exact htu
      · exact Text.isBefore_trans htu (hu v hv)
    · split
      · exact h
      · rename_i hlt hne
        refine List.pairwise_cons.2 ⟨fun v hv => ?_, ih hus⟩
        rcases Text.mem_insertAscending.1 hv with rfl | hv
        · exact Text.isBefore_of_ne (by simpa using hlt) hne
        · exact hu v hv

/-- A finite set of texts, listed in ascending order. -/
structure TextSet where
  /-- The members, ascending. -/
  toList : List Text
  /-- Each member stands before the ones after it. -/
  ascending : Text.Ascending toList

namespace TextSet

/-- The set without members. -/
def empty : TextSet := ⟨[], List.Pairwise.nil⟩

instance : EmptyCollection TextSet := ⟨empty⟩
instance : Inhabited TextSet := ⟨empty⟩

instance : Membership Text TextSet := ⟨fun s t => t ∈ s.toList⟩

instance (t : Text) (s : TextSet) : Decidable (t ∈ s) :=
  decidable_of_iff (s.toList.contains t = true) List.contains_iff_mem

/-- The set with one more member. -/
def insert (t : Text) (s : TextSet) : TextSet :=
  ⟨Text.insertAscending t s.toList, Text.ascending_insertAscending s.ascending⟩

/-- The set of the texts of a list. -/
def ofList (ts : List Text) : TextSet :=
  ts.foldl (fun s t => s.insert t) empty

/-- The members that satisfy a test, ascending. -/
def filter (p : Text → Bool) (s : TextSet) : List Text :=
  s.toList.filter p

@[simp] theorem mem_toList {t : Text} {s : TextSet} : t ∈ s.toList ↔ t ∈ s := Iff.rfl

@[simp] theorem not_mem_empty {t : Text} : t ∉ (∅ : TextSet) := by
  intro h
  exact absurd (show t ∈ ([] : List Text) from h) (by simp)

@[simp] theorem mem_insert {t u : Text} {s : TextSet} : u ∈ s.insert t ↔ u = t ∨ u ∈ s :=
  Text.mem_insertAscending

end TextSet

end ImportClosure
