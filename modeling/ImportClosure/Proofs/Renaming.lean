import ImportClosure.Proofs.OrderedMap
import Mathlib.Logic.Embedding.Basic
/-!
Maps under a renaming of their keys.

`OrderedMap.rename` gives every key a new name, and changes each value by what the old name of its
key says. Different keys keep different names, so whatever is done to a map may be done after the
renaming as well as before it, with the new names for the old ones: there is one law for each
operation on maps.
-/

namespace ImportClosure

variable {κ κ' ν ν' : Type}

namespace OrderedMap

/-- The map with its keys renamed by `f`, and the value of a key `k` changed by `g k`. -/
def rename (f : κ ↪ κ') (g : κ → ν → ν') (m : OrderedMap κ ν) : OrderedMap κ' ν' where
  entries := m.entries.map fun e => (f e.1, g e.1 e.2)
  nodup := by
    have h := m.nodup.map f.injective
    rwa [List.map_map] at h ⊢

variable (f : κ ↪ κ') (g : κ → ν → ν') (m : OrderedMap κ ν)

@[simp] theorem keys_rename : (m.rename f g).keys = m.keys.map f := by
  unfold keys rename
  rw [List.map_map, List.map_map]
  rfl

@[simp] theorem size_rename : (m.rename f g).size = m.size := List.length_map _

@[simp] theorem isEmpty_rename : (m.rename f g).isEmpty = m.isEmpty := List.isEmpty_map

end OrderedMap

variable [DecidableEq κ] [DecidableEq κ']

namespace Entries

variable (f : κ ↪ κ') (g : κ → ν → ν')

theorem lookup_map (k : κ) (es : List (κ × ν)) :
    lookup (f k) (es.map fun e => (f e.1, g e.1 e.2)) = (lookup k es).map (g k) := by
  induction es with
  | nil => rfl
  | cons e es ih =>
    obtain ⟨k', v⟩ := e
    simp only [List.map_cons, lookup]
    by_cases h : k' = k
    · rw [h, if_pos rfl, if_pos rfl, Option.map_some]
    · rw [if_neg h, if_neg (f.injective.ne h), ih]

theorem map_insert (k : κ) (v : ν) (es : List (κ × ν)) :
    (insert k v es).map (fun e => (f e.1, g e.1 e.2))
      = insert (f k) (g k v) (es.map fun e => (f e.1, g e.1 e.2)) := by
  induction es with
  | nil => rfl
  | cons e es ih =>
    obtain ⟨k', v'⟩ := e
    simp only [List.map_cons, insert]
    by_cases h : k' = k
    · rw [h, if_pos rfl, if_pos rfl, List.map_cons]
    · rw [if_neg h, if_neg (f.injective.ne h), List.map_cons, ih]

end Entries

namespace OrderedMap

variable (f : κ ↪ κ') (g : κ → ν → ν') (m : OrderedMap κ ν) (k : κ) (v : ν)

@[simp] theorem get?_rename : (m.rename f g).get? (f k) = (m.get? k).map (g k) :=
  Entries.lookup_map f g k m.entries

@[simp] theorem contains_rename : (m.rename f g).contains (f k) = m.contains k := by
  unfold contains
  rw [get?_rename, Option.isSome_map]

theorem rename_insert : (m.insert k v).rename f g = (m.rename f g).insert (f k) (g k v) :=
  ext_entries (Entries.map_insert f g k v m.entries)

theorem rename_insertIfNew :
    (m.insertIfNew k v).rename f g = (m.rename f g).insertIfNew (f k) (g k v) := by
  unfold insertIfNew
  rw [contains_rename]
  split
  · rfl
  · exact rename_insert f g m k v

end OrderedMap

end ImportClosure
