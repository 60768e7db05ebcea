/-!
Finite maps that remember the order in which their keys were first given a value.

`OrderedMap.insert` gives a key a new value at the key's old place, or at the end if the key is
new, so `keys` lists the keys in first-insertion order, each once.
-/

namespace ImportClosure

variable {κ ν μ : Type} [DecidableEq κ]

/-! ## Lists of entries -/

namespace Entries

/-- The value of a key. -/
def lookup (k : κ) : List (κ × ν) → Option ν
  | [] => none
  | (k', v) :: es => if k' = k then some v else lookup k es

/-- Gives `k` the value `v`, in place or at the end. -/
def insert (k : κ) (v : ν) : List (κ × ν) → List (κ × ν)
  | [] => [(k, v)]
  | (k', v') :: es => if k' = k then (k', v) :: es else (k', v') :: insert k v es

theorem keys_insert_of_mem {k : κ} {v : ν} {es : List (κ × ν)} (h : k ∈ es.map Prod.fst) :
    (insert k v es).map Prod.fst = es.map Prod.fst := by
  induction es with
  | nil => simp at h
  | cons e es ih =>
    obtain ⟨k', v'⟩ := e
    unfold insert
    split
    · rfl
    · rename_i hne
      simp only [List.map_cons, List.mem_cons] at h
      simp only [List.map_cons, ih (h.resolve_left (fun h' => hne h'.symm))]

theorem keys_insert_of_not_mem {k : κ} {v : ν} {es : List (κ × ν)}
    (h : k ∉ es.map Prod.fst) : (insert k v es).map Prod.fst = es.map Prod.fst ++ [k] := by
  induction es with
  | nil => rfl
  | cons e es ih =>
    obtain ⟨k', v'⟩ := e
    simp only [List.map_cons, List.mem_cons, not_or] at h
    unfold insert
    split
    · rename_i heq
      exact absurd heq.symm h.1
    · simp only [List.map_cons, ih h.2, List.cons_append]

theorem nodup_keys_insert {k : κ} {v : ν} {es : List (κ × ν)} (h : (es.map Prod.fst).Nodup) :
    ((insert k v es).map Prod.fst).Nodup := by
  by_cases hk : k ∈ es.map Prod.fst
  · rw [keys_insert_of_mem hk]
    exact h
  · rw [keys_insert_of_not_mem hk, List.nodup_append]
    exact ⟨h, by simp, by simp only [List.mem_singleton]; grind⟩

end Entries

/-- A finite map with its keys in first-insertion order. -/
structure OrderedMap (κ ν : Type) where
  /-- The entries in first-insertion order of their keys. -/
  entries : List (κ × ν)
  /-- No key has two entries. -/
  nodup : (entries.map Prod.fst).Nodup

namespace OrderedMap

/-- The map without entries. -/
def empty : OrderedMap κ ν := ⟨[], List.nodup_nil⟩

instance : EmptyCollection (OrderedMap κ ν) := ⟨⟨[], List.nodup_nil⟩⟩
instance : Inhabited (OrderedMap κ ν) := ⟨∅⟩

/-- The keys in first-insertion order. -/
def keys (m : OrderedMap κ ν) : List κ := m.entries.map Prod.fst

/-- The number of keys. -/
def size (m : OrderedMap κ ν) : Nat := m.entries.length

/-- There are no entries. -/
def isEmpty (m : OrderedMap κ ν) : Bool := m.entries.isEmpty

/-- The value of a key. -/
def get? (m : OrderedMap κ ν) (k : κ) : Option ν := Entries.lookup k m.entries

/-- The key has a value. -/
def contains (m : OrderedMap κ ν) (k : κ) : Bool := (m.get? k).isSome

/-- Gives `k` the value `v`, in place or at the end. -/
def insert (m : OrderedMap κ ν) (k : κ) (v : ν) : OrderedMap κ ν :=
  ⟨Entries.insert k v m.entries, Entries.nodup_keys_insert m.nodup⟩

/-- Gives `k` the value `v` unless it has one. -/
def insertIfNew (m : OrderedMap κ ν) (k : κ) (v : ν) : OrderedMap κ ν :=
  if m.contains k then m else m.insert k v

/-- The map with these entries, a later entry of a key replacing the value of an earlier one. -/
def ofList (es : List (κ × ν)) : OrderedMap κ ν :=
  es.foldl (fun m e => m.insert e.1 e.2) ∅

end OrderedMap

end ImportClosure
