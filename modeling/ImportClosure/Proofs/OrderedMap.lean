import ImportClosure.OrderedMap
import Mathlib.Data.List.Nodup
/-!
Laws of ordered maps.

A map is used in two ways: as a function, by `get?`, and as a list that is shown to somebody, by
`keys` and `entries`. The laws below say what an insertion does to either view, and that the two
views agree. The insertion of a key that is there changes its value in place, and that of a new key
adds an entry at the end (`entries_insert_of_not_mem`); of many insertions the one view is
`get?_foldl_insert`, and the other is `entries_foldl_insert_eq`.
-/

namespace ImportClosure

variable {κ ν : Type}

namespace OrderedMap

/-! ## Maps as lists -/

/-- A map is its list of entries. -/
theorem ext_entries {m m' : OrderedMap κ ν} (h : m.entries = m'.entries) : m = m' := by
  obtain ⟨es, hes⟩ := m
  obtain ⟨es', hes'⟩ := m'
  simp only at h
  subst h
  rfl

theorem nodup_keys (m : OrderedMap κ ν) : m.keys.Nodup := m.nodup

theorem isEmpty_iff {m : OrderedMap κ ν} : m.isEmpty = true ↔ m.entries = [] :=
  List.isEmpty_iff

@[simp] theorem entries_empty : (∅ : OrderedMap κ ν).entries = [] := rfl

@[simp] theorem keys_empty : (∅ : OrderedMap κ ν).keys = [] := rfl

end OrderedMap

variable [DecidableEq κ]

/-! ## Lists of entries -/

namespace Entries

theorem lookup_insert (k k' : κ) (v : ν) (es : List (κ × ν)) :
    lookup k' (insert k v es) = if k = k' then some v else lookup k' es := by
  induction es with
  | nil => simp only [insert, lookup]
  | cons e es ih =>
    obtain ⟨k₀, v₀⟩ := e
    unfold insert
    by_cases h : k₀ = k
    · subst h
      rw [if_pos rfl]
      simp only [lookup]
      split <;> rfl
    · rw [if_neg h]
      simp only [lookup]
      by_cases h' : k₀ = k'
      · subst h'
        rw [if_pos rfl, if_pos rfl, if_neg (Ne.symm h)]
      · rw [if_neg h', if_neg h', ih]

/-- A new key goes to the end. -/
theorem insert_of_not_mem {k : κ} {v : ν} {es : List (κ × ν)} (h : k ∉ es.map Prod.fst) :
    insert k v es = es ++ [(k, v)] := by
  induction es with
  | nil => rfl
  | cons e es ih =>
    obtain ⟨k₀, v₀⟩ := e
    simp only [List.map_cons, List.mem_cons, not_or] at h
    unfold insert
    rw [if_neg (Ne.symm h.1), ih h.2, List.cons_append]

/-- A key that is there keeps its place. -/
theorem insert_of_mem {k : κ} {v : ν} {es : List (κ × ν)} (hes : (es.map Prod.fst).Nodup)
    (h : k ∈ es.map Prod.fst) :
    insert k v es = es.map fun e => if e.1 = k then (e.1, v) else e := by
  induction es with
  | nil => exact absurd h List.not_mem_nil
  | cons e es ih =>
    obtain ⟨k₀, v₀⟩ := e
    rw [List.map_cons, List.nodup_cons] at hes
    unfold insert
    rw [List.map_cons]
    by_cases hk : k₀ = k
    · subst hk
      -- the key stands nowhere else, so nothing else changes
      have hrest : ∀ e ∈ es, (if e.1 = k₀ then (e.1, v) else e) = e := by
        intro e he
        exact if_neg fun heq => hes.1 (List.mem_map.2 ⟨e, he, heq⟩)
      rw [if_pos rfl, if_pos rfl, List.map_congr_left hrest, List.map_id']
    · rw [if_neg hk, if_neg hk, ih hes.2 ((List.mem_cons.1 h).resolve_left (Ne.symm hk))]

theorem lookup_eq_none_iff {k : κ} {es : List (κ × ν)} :
    lookup k es = none ↔ k ∉ es.map Prod.fst := by
  induction es with
  | nil => simp [lookup]
  | cons e es ih =>
    obtain ⟨k₀, v₀⟩ := e
    simp only [lookup, List.map_cons, List.mem_cons, not_or]
    by_cases h : k₀ = k
    · simp [h]
    · rw [if_neg h, ih]
      exact ⟨fun h' => ⟨Ne.symm h, h'⟩, fun h' => h'.2⟩

/-- Where no key stands twice, the value found is the one that is listed. -/
theorem lookup_eq_some_iff {k : κ} {v : ν} {es : List (κ × ν)}
    (hes : (es.map Prod.fst).Nodup) : lookup k es = some v ↔ (k, v) ∈ es := by
  induction es with
  | nil => simp [lookup]
  | cons e es ih =>
    obtain ⟨k₀, v₀⟩ := e
    rw [List.map_cons, List.nodup_cons] at hes
    simp only [lookup, List.mem_cons, Prod.mk.injEq]
    by_cases h : k₀ = k
    · subst h
      have hnot : (k₀, v) ∉ es := fun hv => hes.1 (List.mem_map.2 ⟨_, hv, rfl⟩)
      rw [if_pos rfl]
      simp only [Option.some.injEq, true_and, hnot, or_false]
      exact eq_comm
    · rw [if_neg h, ih hes.2]
      simp only [Ne.symm h, false_and, false_or]

end Entries

namespace OrderedMap

/-! ## The two views of a map -/

theorem get?_eq_some_iff {m : OrderedMap κ ν} {k : κ} {v : ν} :
    m.get? k = some v ↔ (k, v) ∈ m.entries :=
  Entries.lookup_eq_some_iff m.nodup

theorem get?_eq_none_iff {m : OrderedMap κ ν} {k : κ} : m.get? k = none ↔ k ∉ m.keys :=
  Entries.lookup_eq_none_iff

theorem mem_keys_iff {m : OrderedMap κ ν} {k : κ} : k ∈ m.keys ↔ ∃ v, m.get? k = some v := by
  rw [← Option.ne_none_iff_exists', Ne, get?_eq_none_iff, not_not]

theorem contains_iff {m : OrderedMap κ ν} {k : κ} : m.contains k = true ↔ k ∈ m.keys := by
  rw [contains, Option.isSome_iff_exists, mem_keys_iff]

/-- A map is empty if no key has a value. -/
theorem entries_eq_nil_iff {m : OrderedMap κ ν} : m.entries = [] ↔ ∀ k, m.get? k = none := by
  constructor
  · intro h k
    unfold get?
    rw [h]
    rfl
  · intro h
    rw [List.eq_nil_iff_forall_not_mem]
    rintro ⟨k, v⟩ hm
    have hk := get?_eq_some_iff.2 hm
    rw [h k] at hk
    exact absurd hk nofun

/-! ## Insertions -/

theorem get?_insert (m : OrderedMap κ ν) (k k' : κ) (v : ν) :
    (m.insert k v).get? k' = if k = k' then some v else m.get? k' :=
  Entries.lookup_insert k k' v m.entries

theorem mem_keys_insert {m : OrderedMap κ ν} {k k' : κ} {v : ν} :
    k' ∈ (m.insert k v).keys ↔ k' = k ∨ k' ∈ m.keys := by
  rw [mem_keys_iff, mem_keys_iff, get?_insert]
  by_cases h : k = k'
  · simp [h]
  · simp [h, Ne.symm h]

theorem entries_insert_of_not_mem {m : OrderedMap κ ν} {k : κ} {v : ν} (h : k ∉ m.keys) :
    (m.insert k v).entries = m.entries ++ [(k, v)] :=
  Entries.insert_of_not_mem h

theorem entries_insert_of_mem {m : OrderedMap κ ν} {k : κ} {v : ν} (h : k ∈ m.keys) :
    (m.insert k v).entries = m.entries.map fun e => if e.1 = k then (e.1, v) else e :=
  Entries.insert_of_mem m.nodup h

theorem keys_insert_of_not_mem {m : OrderedMap κ ν} {k : κ} {v : ν} (h : k ∉ m.keys) :
    (m.insert k v).keys = m.keys ++ [k] :=
  Entries.keys_insert_of_not_mem h

theorem insertIfNew_of_not_mem {m : OrderedMap κ ν} {k : κ} {v : ν} (h : k ∉ m.keys) :
    m.insertIfNew k v = m.insert k v :=
  if_neg (fun hc => h (contains_iff.1 hc))

/-- Of a list without repeated keys, each key gets the value that it has there. -/
theorem get?_foldl_insert {m : OrderedMap κ ν} {es : List (κ × ν)} {k : κ}
    (h : (es.map Prod.fst).Nodup) :
    (es.foldl (fun m e => m.insert e.1 e.2) m).get? k = (Entries.lookup k es).or (m.get? k) := by
  induction es generalizing m with
  | nil => rfl
  | cons e es ih =>
    obtain ⟨k₀, v₀⟩ := e
    rw [List.map_cons, List.nodup_cons] at h
    rw [List.foldl_cons, ih h.2, get?_insert, Entries.lookup]
    by_cases hk : k₀ = k
    · subst hk
      rw [if_pos rfl, if_pos rfl, Entries.lookup_eq_none_iff.2 h.1]
      rfl
    · rw [if_neg hk, if_neg hk]

/-- **Many insertions.** Inserting the entries of a list without repeated keys leaves the entries
that were there in their places, with the values that their keys have in the list, and lists the
others after them. -/
theorem entries_foldl_insert_eq {m : OrderedMap κ ν} {es : List (κ × ν)}
    (h : (es.map Prod.fst).Nodup) :
    (es.foldl (fun m e => m.insert e.1 e.2) m).entries
      = m.entries.map (fun e => (e.1, (Entries.lookup e.1 es).getD e.2))
        ++ es.filter fun e => e.1 ∉ m.keys := by
  induction es generalizing m with
  | nil => simp [Entries.lookup]
  | cons e es ih =>
    obtain ⟨k, v⟩ := e
    rw [List.map_cons, List.nodup_cons] at h
    obtain ⟨hk, hes⟩ := h
    have hlookup : Entries.lookup k es = none := Entries.lookup_eq_none_iff.2 hk
    rw [List.foldl_cons, ih hes]
    by_cases hmem : k ∈ m.keys
    · -- the key keeps its place, and the keys are the same
      have hfilter : ∀ e ∈ es, decide (e.1 ∉ (m.insert k v).keys) = decide (e.1 ∉ m.keys) := by
        intro e _
        refine decide_eq_decide.2 (not_congr (mem_keys_insert.trans (or_iff_right_of_imp ?_)))
        rintro rfl
        exact hmem
      rw [entries_insert_of_mem hmem, List.map_map, List.filter_congr hfilter,
        List.filter_cons_of_neg (by simpa using hmem)]
      refine congrArg (· ++ _) (List.map_congr_left fun e _ => ?_)
      rw [Function.comp_apply, Entries.lookup]
      by_cases he : e.1 = k
      · rw [if_pos he, if_pos he.symm, he, hlookup]
        rfl
      · rw [if_neg he, if_neg (Ne.symm he)]
    · -- the key comes after all others, and does not stand in the rest of the list
      have hfilter : ∀ e ∈ es, decide (e.1 ∉ (m.insert k v).keys) = decide (e.1 ∉ m.keys) := by
        intro e he
        refine decide_eq_decide.2 (not_congr (mem_keys_insert.trans (or_iff_right ?_)))
        rintro rfl
        exact hk (List.mem_map.2 ⟨e, he, rfl⟩)
      have hmap : ∀ e ∈ m.entries, (e.1, (Entries.lookup e.1 es).getD e.2)
          = (e.1, (Entries.lookup e.1 ((k, v) :: es)).getD e.2) := by
        intro e he
        rw [Entries.lookup, if_neg]
        rintro rfl
        exact hmem (List.mem_map_of_mem he)
      rw [entries_insert_of_not_mem hmem, List.map_append, List.filter_congr hfilter,
        List.filter_cons_of_pos (by simpa using hmem), List.map_congr_left hmap, List.map_singleton,
        hlookup, List.append_assoc]
      rfl

/-- Inserting the entries of a list without repeated keys, all of them new, lists them after the
entries that were there. -/
theorem entries_foldl_insert {m : OrderedMap κ ν} {es : List (κ × ν)}
    (h : (m.keys ++ es.map Prod.fst).Nodup) :
    (es.foldl (fun m e => m.insert e.1 e.2) m).entries = m.entries ++ es := by
  obtain ⟨-, hes, hne⟩ := List.nodup_append.1 h
  have hold : ∀ e ∈ m.entries, (e.1, (Entries.lookup e.1 es).getD e.2) = e := by
    intro e he
    rw [Entries.lookup_eq_none_iff.2 fun hmem => hne _ (List.mem_map_of_mem he) _ hmem rfl]
    rfl
  have hnew : ∀ e ∈ es, decide (e.1 ∉ m.keys) = true := by
    intro e he
    exact decide_eq_true fun hmem => hne _ hmem _ (List.mem_map_of_mem he) rfl
  rw [entries_foldl_insert_eq hes, List.map_congr_left hold, List.map_id',
    List.filter_eq_self.2 hnew]

end OrderedMap

end ImportClosure
