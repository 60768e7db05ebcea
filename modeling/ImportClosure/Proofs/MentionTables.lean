import ImportClosure.Proofs.FirstOccurrences
import ImportClosure.Proofs.OrderedMap
/-!
Ordered maps as tables of what was mentioned.

A map that is only ever extended is told by the mentions of its keys: it lists the keys in the order
of first mention (`OrderedMap.IsTableOf`), and keys and values tell a map. The value of a key is
made of its mentions in one of three ways, with one law each for one more mention: the first value
stays (`insertIfNew_first`), the last value counts (`insert_last`), or names are gathered, each once
(`insert_gathered`). Whichever it is, the map grows: no entry goes away or changes its place
(`OrderedMap.Grows`).
-/

namespace ImportClosure

namespace OrderedMap

variable {ν α : Type} {m m' : OrderedMap Text ν} {ks : List Text} {value value' : Text → Option ν}
variable {k : Text} {v : ν}

/-! ## Maps as tables of what was mentioned -/

/-- Each entry is a key with its value. -/
theorem map_entries_eq (m : OrderedMap Text ν) :
    m.entries.map (fun e => (e.1, some e.2)) = m.keys.map fun k => (k, m.get? k) := by
  unfold keys
  rw [List.map_map]
  apply List.map_congr_left
  intro e he
  rw [Function.comp_apply, get?_eq_some_iff.2 he]

/-- Keys and values tell a map. -/
theorem ext_get? (hkeys : m.keys = m'.keys) (hget : ∀ k, m.get? k = m'.get? k) : m = m' := by
  have hinj : Function.Injective fun e : Text × ν => (e.1, some e.2) := by
    intro e e' heq
    obtain ⟨hkey, hvalue⟩ := Prod.mk.inj heq
    exact Prod.ext hkey (Option.some.inj hvalue)
  apply ext_entries
  apply List.map_injective_iff.2 hinj
  rw [map_entries_eq, map_entries_eq, hkeys]
  exact List.map_congr_left fun k _ => by rw [hget]

theorem keys_insert (m : OrderedMap Text ν) (k : Text) (v : ν) :
    (m.insert k v).keys = (m.keys ++ [k]).eraseDups := by
  by_cases hk : k ∈ m.keys
  · have hold : (m.insert k v).keys = m.keys := Entries.keys_insert_of_mem hk
    rw [hold, eraseDups_append_singleton_of_mem hk, eraseDups_of_nodup m.nodup_keys]
  · rw [keys_insert_of_not_mem hk, eraseDups_append_singleton_of_not_mem hk,
      eraseDups_of_nodup m.nodup_keys]

/-- A value that is given again changes nothing. -/
theorem insert_of_get? (h : m.get? k = some v) : m.insert k v = m := by
  have hk : k ∈ m.keys := mem_keys_iff.2 ⟨v, h⟩
  refine ext_get? (Entries.keys_insert_of_mem hk) fun k' => ?_
  rw [get?_insert]
  by_cases hkk : k = k'
  · rw [if_pos hkk, ← hkk, h]
  · rw [if_neg hkk]

/-- The map lists these keys in the order of first mention, and has these values. -/
structure IsTableOf (m : OrderedMap Text ν) (ks : List Text) (value : Text → Option ν) : Prop where
  keys : m.keys = ks.eraseDups
  get? : ∀ k, m.get? k = value k

theorem IsTableOf.unique (h : m.IsTableOf ks value) (h' : m'.IsTableOf ks value) : m = m' :=
  ext_get? (h.keys.trans h'.keys.symm) fun k => (h.get? k).trans (h'.get? k).symm

theorem IsTableOf.mem_keys_iff (h : m.IsTableOf ks value) : k ∈ m.keys ↔ k ∈ ks := by
  rw [h.keys, List.mem_eraseDups]

theorem insertIfNew_of_mem (hk : k ∈ m.keys) : m.insertIfNew k v = m :=
  if_pos (contains_iff.2 hk)

theorem IsTableOf.insert (h : m.IsTableOf ks value)
    (hvalue : ∀ k', value' k' = if k = k' then some v else value k') :
    (m.insert k v).IsTableOf (ks ++ [k]) value' := by
  refine ⟨?_, fun k' => ?_⟩
  · rw [keys_insert, h.keys, eraseDups_append_left]
  · rw [get?_insert, h.get?, hvalue]

/-! ## Three ways to make a value of its mentions -/

/-- The first value under which each key is mentioned. -/
def IsFirstOf (m : OrderedMap Text ν) (mentions : List (Text × ν)) : Prop :=
  m.IsTableOf (mentions.map Prod.fst) fun k => (mentions.find? (·.1 = k)).map Prod.snd

/-- The last value under which each key is mentioned. -/
def IsLastOf (m : OrderedMap Text ν) (mentions : List (Text × ν)) : Prop :=
  m.IsTableOf (mentions.map Prod.fst) fun k => (mentions.reverse.find? (·.1 = k)).map Prod.snd

/-- All that a key is mentioned with, each once, in the order of first mention. -/
def gathered (mentions : List (Text × List Text)) (k : Text) : List Text :=
  ((mentions.filter (·.1 = k)).flatMap Prod.snd).eraseDups

/-- What each key is mentioned with. -/
def IsGatheredFrom (m : OrderedMap Text (List Text)) (mentions : List (Text × List Text)) : Prop :=
  m.IsTableOf (mentions.map Prod.fst) fun k =>
    (mentions.find? (·.1 = k)).map fun _ => gathered mentions k

variable {mentions : List (Text × ν)}

/-- The first value stays. -/
theorem insertIfNew_first (h : m.IsFirstOf mentions) (k : Text) (v : ν) :
    (m.insertIfNew k v).IsFirstOf (mentions ++ [(k, v)]) := by
  unfold IsFirstOf
  rw [List.map_append, List.map_singleton]
  by_cases hk : k ∈ m.keys
  · have hks : k ∈ mentions.map Prod.fst := (IsTableOf.mem_keys_iff h).1 hk
    obtain ⟨first, hfirst⟩ := mem_keys_iff.1 hk
    rw [h.get?] at hfirst
    rw [insertIfNew_of_mem hk]
    refine ⟨?_, fun k' => ?_⟩
    · rw [eraseDups_append_singleton_of_mem hks]
      exact h.keys
    · rw [h.get?, List.find?_append]
      by_cases hkk : k = k'
      · -- the key was mentioned before, and the earlier mention is found
        subst hkk
        obtain ⟨e, he, -⟩ := Option.map_eq_some_iff.1 hfirst
        rw [he, Option.some_or]
      · simp [hkk]
  · have hnone : mentions.find? (·.1 = k) = none := by
      have hvalue := h.get? k
      rw [get?_eq_none_iff.2 hk] at hvalue
      exact Option.map_eq_none_iff.1 hvalue.symm
    rw [insertIfNew_of_not_mem hk]
    refine IsTableOf.insert h fun k' => ?_
    rw [List.find?_append]
    by_cases hkk : k = k'
    · subst hkk
      simp [hnone]
    · simp [hkk]

/-- The last value counts. -/
theorem insert_last (h : m.IsLastOf mentions) (k : Text) (v : ν) :
    (m.insert k v).IsLastOf (mentions ++ [(k, v)]) := by
  unfold IsLastOf
  rw [List.map_append, List.map_singleton]
  refine IsTableOf.insert h fun k' => ?_
  rw [List.reverse_append, List.reverse_singleton, List.singleton_append, List.find?_cons]
  by_cases hk : k = k'
  · simp [hk]
  · simp [hk]

theorem gathered_append_self (mentions : List (Text × List Text)) (k : Text) (names : List Text) :
    gathered (mentions ++ [(k, names)]) k = (gathered mentions k ++ names).eraseDups := by
  unfold gathered
  rw [List.filter_append, List.flatMap_append, eraseDups_append_left]
  simp

theorem gathered_append_of_ne {k' : Text} (mentions : List (Text × List Text)) (names : List Text)
    (h : k ≠ k') : gathered (mentions ++ [(k, names)]) k' = gathered mentions k' := by
  unfold gathered
  rw [List.filter_append]
  simp [h]

/-- The names gathered so far, none if there was no mention. -/
theorem getD_of_isGatheredFrom {m : OrderedMap Text (List Text)}
    {mentions : List (Text × List Text)} (h : m.IsGatheredFrom mentions) (k : Text) :
    (m.get? k).getD [] = gathered mentions k := by
  rw [h.get?]
  cases hfind : mentions.find? (·.1 = k) with
  | some e => rfl
  | none =>
    have hnil : mentions.filter (·.1 = k) = [] :=
      List.filter_eq_nil_iff.2 (List.find?_eq_none.1 hfind)
    unfold gathered
    rw [hnil]
    rfl

/-- Names are gathered. -/
theorem insert_gathered {m : OrderedMap Text (List Text)} {mentions : List (Text × List Text)}
    (h : m.IsGatheredFrom mentions) (k : Text) (names : List Text) :
    (m.insert k (appendNew ((m.get? k).getD []) names)).IsGatheredFrom
      (mentions ++ [(k, names)]) := by
  have hnew : appendNew ((m.get? k).getD []) names = gathered (mentions ++ [(k, names)]) k := by
    have hnodup : (gathered mentions k).Nodup := nodup_eraseDups _
    rw [getD_of_isGatheredFrom h, appendNew_eq_eraseDups hnodup, gathered_append_self]
  unfold IsGatheredFrom
  rw [hnew, List.map_append, List.map_singleton]
  refine IsTableOf.insert h fun k' => ?_
  rw [List.find?_append]
  by_cases hkk : k = k'
  · subst hkk
    cases mentions.find? (·.1 = k) <;> simp
  · rw [gathered_append_of_ne _ _ hkk]
    simp [hkk]

/-! ## Maps that grow -/

/-- Entries are added behind those that were there, which keep their places and whose values go on
as `le` says. -/
structure Grows (le : ν → ν → Prop) (m m' : OrderedMap Text ν) : Prop where
  keys : m.keys <+: m'.keys
  get? : ∀ k v, m.get? k = some v → ∃ v', m'.get? k = some v' ∧ le v v'

variable {le : ν → ν → Prop}

theorem Grows.refl (hle : ∀ v, le v v) (m : OrderedMap Text ν) : Grows le m m :=
  ⟨List.prefix_rfl, fun _ v hv => ⟨v, hv, hle v⟩⟩

theorem Grows.insert (hle : ∀ v, le v v) (h : ∀ before, m.get? k = some before → le before v) :
    Grows le m (m.insert k v) := by
  refine ⟨?_, fun k' before hbefore => ?_⟩
  · rw [keys_insert]
    conv_lhs => rw [← eraseDups_of_nodup m.nodup_keys]
    exact eraseDups_prefix m.keys [k]
  · rw [get?_insert]
    by_cases hk : k = k'
    · exact ⟨v, if_pos hk, h before (hk ▸ hbefore)⟩
    · exact ⟨before, (if_neg hk).trans hbefore, hle before⟩

end OrderedMap

end ImportClosure
