import ImportClosure.Resolution.Collector
import Mathlib.Data.List.Induction
import Mathlib.Data.List.Nodup
/-!
First occurrences.

Whatever a run lists, it lists in the order of first mention and only once: files, referrers,
missing paths. `List.eraseDups` is that operation, and the laws here say how it behaves when a
list grows at its end, which is the only way in which the lists of a run grow. `appendNew`, the
step by which the collector extends a list of names, is the special case
`appendNew_eq_eraseDups`.

Where each mention has a key and the keys ascend, the place of an element among the first
occurrences is told by its first key: `pairwise_isFirstKey_eraseDups`.
-/

namespace ImportClosure

section Lists

variable {α : Type} [BEq α] [LawfulBEq α]

/-! ## Lists that grow at their end -/

/-- An element that stands in the list already changes nothing. -/
theorem eraseDups_append_singleton_of_mem {l : List α} {a : α} (h : a ∈ l) :
    (l ++ [a]).eraseDups = l.eraseDups := by
  rw [List.eraseDups_append, List.cons_removeAll, if_neg (by simpa using h)]
  simp

/-- A new element goes to the end. -/
theorem eraseDups_append_singleton_of_not_mem {l : List α} {a : α} (h : a ∉ l) :
    (l ++ [a]).eraseDups = l.eraseDups ++ [a] := by
  rw [List.eraseDups_append, List.cons_removeAll, if_pos (by simpa using h)]
  simp [List.eraseDups_cons]

theorem nodup_eraseDups (l : List α) : l.eraseDups.Nodup := by
  induction l using List.reverseRecOn with
  | nil => exact List.nodup_nil
  | append_singleton l a ih =>
    by_cases h : a ∈ l
    · rw [eraseDups_append_singleton_of_mem h]
      exact ih
    · rw [eraseDups_append_singleton_of_not_mem h, ← List.concat_eq_append]
      exact ih.concat (by rwa [List.mem_eraseDups])

theorem eraseDups_of_nodup {l : List α} (h : l.Nodup) : l.eraseDups = l := by
  induction l using List.reverseRecOn with
  | nil => rfl
  | append_singleton l a ih =>
    have hl : l.Nodup := (List.nodup_append.1 h).1
    have ha : a ∉ l := fun hm => (List.nodup_append.1 h).2.2 a hm a (by simp) rfl
    rw [eraseDups_append_singleton_of_not_mem ha, ih hl]

/-- What was listed stays where it is. -/
theorem eraseDups_prefix (l l' : List α) : l.eraseDups <+: (l ++ l').eraseDups := by
  rw [List.eraseDups_append]
  exact List.prefix_append _ _

/-- Repetitions may be dropped before a list is extended. -/
theorem eraseDups_append_left (l l' : List α) :
    (l.eraseDups ++ l').eraseDups = (l ++ l').eraseDups := by
  induction l' using List.reverseRecOn with
  | nil =>
    rw [List.append_nil, List.append_nil]
    exact eraseDups_of_nodup (nodup_eraseDups l)
  | append_singleton l' a ih =>
    rw [← List.append_assoc, ← List.append_assoc]
    by_cases h : a ∈ l ++ l'
    -- dropping repetitions from `l` leaves its members as they are
    · rw [eraseDups_append_singleton_of_mem h, eraseDups_append_singleton_of_mem, ih]
      simpa using h
    · rw [eraseDups_append_singleton_of_not_mem h, eraseDups_append_singleton_of_not_mem, ih]
      simpa using h

end Lists

section Keys

variable {κ α : Type} {lt : κ → κ → Prop}

/-! ## Mentions under ascending keys -/

/-- Of the keys under which `a` is mentioned, `k` is the first. -/
structure IsFirstKey (lt : κ → κ → Prop) (mentions : List (κ × α)) (a : α) (k : κ) : Prop where
  mem : (k, a) ∈ mentions
  first : ∀ k', (k', a) ∈ mentions → k' = k ∨ lt k k'

/-- A mention under a later key changes nothing. -/
theorem IsFirstKey.append_singleton {mentions : List (κ × α)} {a b : α} {k k' : κ}
    (h : IsFirstKey lt mentions a k) (hlt : lt k k') :
    IsFirstKey lt (mentions ++ [(k', b)]) a k where
  mem := List.mem_append_left _ h.mem
  first := by
    intro k₀ hk₀
    rcases List.mem_append.1 hk₀ with hk₀ | hk₀
    · exact h.first k₀ hk₀
    · rw [List.mem_singleton, Prod.mk.injEq] at hk₀
      rw [hk₀.1]
      exact Or.inr hlt

theorem exists_isFirstKey {mentions : List (κ × α)}
    (h : mentions.Pairwise fun m m' => lt m.1 m'.1) {a : α} (ha : a ∈ mentions.map Prod.snd) :
    ∃ k, IsFirstKey lt mentions a k := by
  induction mentions with
  | nil => exact absurd ha List.not_mem_nil
  | cons m mentions ih =>
    obtain ⟨k, b⟩ := m
    obtain ⟨hhead, htail⟩ := List.pairwise_cons.1 h
    by_cases hab : a = b
    · subst hab
      refine ⟨k, List.mem_cons_self, ?_⟩
      intro k' hk'
      rcases List.mem_cons.1 hk' with heq | hk'
      · exact Or.inl (Prod.mk.inj heq).1
      · exact Or.inr (hhead _ hk')
    · obtain ⟨k', hk'⟩ := ih htail ((List.mem_cons.1 ha).resolve_left hab)
      refine ⟨k', List.mem_cons_of_mem _ hk'.mem, ?_⟩
      intro k₀ hk₀
      rcases List.mem_cons.1 hk₀ with heq | hk₀
      · exact absurd (Prod.mk.inj heq).2 hab
      · exact hk'.first k₀ hk₀

/-- **Order of first mention.** Where mentions ascend by key, the list of first occurrences
ascends by the first key of each. -/
theorem pairwise_isFirstKey_eraseDups [BEq α] [LawfulBEq α] {mentions : List (κ × α)}
    (h : mentions.Pairwise fun m m' => lt m.1 m'.1) :
    (mentions.map Prod.snd).eraseDups.Pairwise fun a b =>
      ∃ k l, IsFirstKey lt mentions a k ∧ IsFirstKey lt mentions b l ∧ lt k l := by
  induction mentions using List.reverseRecOn with
  | nil => exact List.Pairwise.nil
  | append_singleton mentions m ih =>
    obtain ⟨l, b⟩ := m
    obtain ⟨hinit, _, hlast⟩ := List.pairwise_append.1 h
    -- all keys so far come before the last one, so first keys stay first keys
    have hbefore : ∀ {a k}, IsFirstKey lt mentions a k → lt k l :=
      fun hk => hlast _ hk.mem _ (List.mem_singleton.2 rfl)
    have hold : (mentions.map Prod.snd).eraseDups.Pairwise fun a b' =>
        ∃ k k', IsFirstKey lt (mentions ++ [(l, b)]) a k
          ∧ IsFirstKey lt (mentions ++ [(l, b)]) b' k' ∧ lt k k' := by
      refine (ih hinit).imp ?_
      rintro a b' ⟨k, k', hk, hk', hlt⟩
      exact ⟨k, k', hk.append_singleton (hbefore hk), hk'.append_singleton (hbefore hk'), hlt⟩
    rw [List.map_append, List.map_singleton]
    by_cases hmem : b ∈ mentions.map Prod.snd
    · rw [eraseDups_append_singleton_of_mem hmem]
      exact hold
    · rw [eraseDups_append_singleton_of_not_mem hmem, List.pairwise_append]
      refine ⟨hold, List.pairwise_singleton _ _, ?_⟩
      intro a ha b' hb'
      rw [List.mem_singleton.1 hb']
      obtain ⟨k, hk⟩ := exists_isFirstKey hinit (List.mem_eraseDups.1 ha)
      refine ⟨k, l, hk.append_singleton (hbefore hk), ⟨by simp, ?_⟩, hbefore hk⟩
      intro k' hk'
      rcases List.mem_append.1 hk' with hk' | hk'
      · exact absurd (List.mem_map.2 ⟨_, hk', rfl⟩) hmem
      · exact Or.inl (Prod.mk.inj (List.mem_singleton.1 hk')).1

end Keys

/-! ## The collector's lists -/

/-- The last name is added if it is not there yet. -/
theorem appendNew_append_singleton (known names : List Text) (a : Text) :
    appendNew known (names ++ [a]) = if a ∈ appendNew known names then appendNew known names
      else appendNew known names ++ [a] := by
  unfold appendNew
  rw [List.foldl_append]
  rfl

/-- Names are added in the order of their first mention. -/
theorem appendNew_eq_eraseDups {known names : List Text} (h : known.Nodup) :
    appendNew known names = (known ++ names).eraseDups := by
  induction names using List.reverseRecOn with
  | nil =>
    rw [List.append_nil, eraseDups_of_nodup h]
    rfl
  | append_singleton names a ih =>
    rw [appendNew_append_singleton, ih, ← List.append_assoc]
    by_cases ha : a ∈ known ++ names
    · rw [if_pos (List.mem_eraseDups.2 ha), eraseDups_append_singleton_of_mem ha]
    · rw [if_neg (fun hm => ha (List.mem_eraseDups.1 hm)),
        eraseDups_append_singleton_of_not_mem ha]

/-- What was listed stays in front. -/
theorem prefix_appendNew (known names : List Text) : known <+: appendNew known names := by
  induction names using List.reverseRecOn with
  | nil => exact List.prefix_rfl
  | append_singleton names a ih =>
    rw [appendNew_append_singleton]
    split
    · exact ih
    · exact ih.trans (List.prefix_append _ _)

theorem appendNew_ne_nil {names : List Text} (known : List Text) (h : names ≠ []) :
    appendNew known names ≠ [] := by
  obtain ⟨init, a, rfl⟩ := (List.eq_nil_or_concat' names).resolve_left h
  rw [appendNew_append_singleton]
  split
  · rename_i ha
    exact List.ne_nil_of_mem ha
  · simp

end ImportClosure
