import ImportClosure.Text.Set
import Mathlib.Data.List.Nodup
import Mathlib.Data.List.Sort
/-!
Laws of texts: splitting against joining, and ascending lists.

`Text.splitOn` and `Text.joinWith` are the operations of that name on lists, so what is known
about those applies. An ascending list has no repetitions, what a test leaves of it ascends, and its
members tell it from every other one; so they tell a set of texts.
-/

namespace ImportClosure

namespace Text

/-! ## Splitting and joining -/

theorem splitOn_eq (sep : CodePoint) (t : Text) : splitOn sep t = List.splitOn sep t := by
  induction t with
  | nil => simp [splitOn]
  | cons c cs ih =>
    rw [splitOn, List.splitOn_cons_eq_if_modifyHead, ← ih]
    by_cases h : c = sep
    · rw [if_pos h, if_pos (beq_iff_eq.2 h)]
    · rw [if_neg h, if_neg (by simpa using h)]
      obtain ⟨w, ws, hw⟩ := List.exists_cons_of_ne_nil (List.splitOn_ne_nil sep cs)
      rw [ih, hw]
      rfl

theorem splitOn_joinWith {sep : CodePoint} {ws : List Text} (h : ∀ w ∈ ws, sep ∉ w)
    (hne : ws ≠ []) : splitOn sep (joinWith [sep] ws) = ws := by
  rw [splitOn_eq]
  exact List.splitOn_intercalate sep h hne

theorem splitOn_cons_self (sep : CodePoint) (t : Text) :
    splitOn sep (sep :: t) = [] :: splitOn sep t :=
  if_pos rfl

theorem splitOn_append_cons (sep : CodePoint) (t u : Text) :
    splitOn sep (t ++ sep :: u) = splitOn sep t ++ splitOn sep u := by
  induction t with
  | nil => exact splitOn_cons_self sep u
  | cons c cs ih =>
    rw [List.cons_append, splitOn, splitOn, ih]
    by_cases h : c = sep
    · rw [if_pos h, if_pos h, List.cons_append]
    · rw [if_neg h, if_neg h]
      obtain ⟨w, ws, hw⟩ := List.exists_cons_of_ne_nil (List.splitOn_ne_nil sep cs)
      rw [← splitOn_eq] at hw
      rw [hw]
      rfl

/-- Lines without the separator, each ended by one, are split back into the same lines. -/
theorem splitOn_flatMap {sep : CodePoint} {lines : List Text} (h : ∀ l ∈ lines, sep ∉ l) :
    splitOn sep (lines.flatMap fun l => l ++ [sep]) = lines ++ [[]] := by
  induction lines with
  | nil => rfl
  | cons l lines ih =>
    obtain ⟨hl, hlines⟩ := List.forall_mem_cons.1 h
    have hone : splitOn sep l = [l] := by
      have hjoin := splitOn_joinWith (List.forall_mem_singleton.2 hl) (List.cons_ne_nil _ _)
      rwa [joinWith, List.intercalate_singleton] at hjoin
    rw [List.flatMap_cons, List.append_assoc, List.singleton_append, splitOn_append_cons, hone,
      ih hlines]
    rfl

theorem joinWith_append {sep : Text} {vs ws : List Text} (hv : vs ≠ []) (hw : ws ≠ []) :
    joinWith sep (vs ++ ws) = joinWith sep vs ++ sep ++ joinWith sep ws := by
  unfold joinWith
  induction vs with
  | nil => exact absurd rfl hv
  | cons v vs ih =>
    rw [List.cons_append, List.intercalate_cons_of_ne_nil (by simp [hw])]
    by_cases hvs : vs = []
    · rw [hvs, List.nil_append, List.intercalate_singleton]
    · rw [ih hvs, List.intercalate_cons_of_ne_nil hvs]
      simp only [List.append_assoc]

/-- No piece holds the separator. -/
theorem not_mem_of_mem_splitOn {sep : CodePoint} {t w : Text} (h : w ∈ splitOn sep t) :
    sep ∉ w := by
  induction t generalizing w with
  | nil =>
    have hw : w = [] := List.mem_singleton.1 h
    rw [hw]
    exact List.not_mem_nil
  | cons c cs ih =>
    unfold splitOn at h
    split at h
    · rcases List.mem_cons.1 h with rfl | h
      · exact List.not_mem_nil
      · exact ih h
    · rename_i hc
      split at h
      · rw [List.mem_singleton.1 h]
        exact fun hm => hc (List.mem_singleton.1 hm).symm
      · rename_i v vs hvs
        rcases List.mem_cons.1 h with rfl | h
        · intro hm
          rcases List.mem_cons.1 hm with hs | hm
          · exact hc hs.symm
          · exact ih (hvs ▸ List.mem_cons_self) hm
        · exact ih (hvs ▸ List.mem_cons_of_mem _ h)

/-- What is written after a joined text is written after its last piece. -/
theorem joinWith_concat_append (sep : Text) (ws : List Text) (w u : Text) :
    joinWith sep (ws ++ [w]) ++ u = joinWith sep (ws ++ [w ++ u]) := by
  unfold joinWith
  induction ws with
  | nil => simp
  | cons v ws ih =>
    rw [List.cons_append, List.cons_append, List.intercalate_cons_of_ne_nil (by simp),
      List.intercalate_cons_of_ne_nil (by simp), List.append_assoc, ih]

/-- A joined text begins with no separator, if its pieces are not empty and hold none. -/
theorem head?_joinWith_ne {sep : CodePoint} {ws : List Text} (hne : ws ≠ [])
    (hws : ∀ w ∈ ws, w ≠ []) (h : ∀ w ∈ ws, sep ∉ w) : (joinWith [sep] ws).head? ≠ some sep := by
  obtain ⟨w, ws, rfl⟩ := List.exists_cons_of_ne_nil hne
  obtain ⟨c, v, rfl⟩ := List.exists_cons_of_ne_nil (hws w List.mem_cons_self)
  have hjoin : joinWith [sep] ((c :: v) :: ws) = c :: joinWith [sep] (v :: ws) :=
    List.intercalate_cons_cons_left
  rw [hjoin]
  intro hc
  exact h _ List.mem_cons_self (Option.some.inj hc ▸ List.mem_cons_self)

/-- A joined text has the code points of its pieces and of the separator. -/
theorem forall_mem_joinWith {P : CodePoint → Prop} {sep : Text} {ws : List Text}
    (hsep : ∀ c ∈ sep, P c) (hws : ∀ w ∈ ws, ∀ c ∈ w, P c) : ∀ c ∈ joinWith sep ws, P c := by
  unfold joinWith
  induction ws with
  | nil => exact List.forall_mem_nil _
  | cons w ws ih =>
    obtain ⟨hw, hws⟩ := List.forall_mem_cons.1 hws
    by_cases hne : ws = []
    · rw [hne, List.intercalate_singleton]
      exact hw
    · rw [List.intercalate_cons_of_ne_nil hne]
      exact List.forall_mem_append.2 ⟨List.forall_mem_append.2 ⟨hw, hsep⟩, ih hws⟩

/-- What a piece holds the whole text holds. -/
theorem mem_joinWith {sep : Text} {ws : List Text} {w : Text} {c : CodePoint} (hw : w ∈ ws)
    (hc : c ∈ w) : c ∈ joinWith sep ws := by
  unfold joinWith
  induction ws with
  | nil => exact absurd hw List.not_mem_nil
  | cons v ws ih =>
    by_cases hne : ws = []
    · subst hne
      obtain rfl := List.mem_singleton.1 hw
      rwa [List.intercalate_singleton]
    · rw [List.intercalate_cons_of_ne_nil hne, List.mem_append, List.mem_append]
      rcases List.mem_cons.1 hw with rfl | hws
      · exact Or.inl (Or.inl hc)
      · exact Or.inr (ih hws)

/-! ## Ascending lists -/

theorem Ascending.nodup {ts : List Text} (h : Ascending ts) : ts.Nodup := by
  refine List.Pairwise.imp ?_ h
  intro t u htu heq
  rw [heq, isBefore_self] at htu
  exact Bool.false_ne_true htu

theorem Ascending.filter {ts : List Text} (h : Ascending ts) (p : Text → Bool) :
    Ascending (ts.filter p) :=
  List.Pairwise.filter p h

instance irrefl_isBefore : Std.Irrefl fun t u => isBefore t u = true where
  irrefl t ht := by
    rw [isBefore_self] at ht
    exact Bool.false_ne_true ht

instance antisymm_isBefore : Std.Antisymm fun t u => isBefore t u = true where
  antisymm t u htu hut := by
    have htt := isBefore_trans htu hut
    rw [isBefore_self] at htt
    exact absurd htt Bool.false_ne_true

/-- There is one way to list texts in ascending order. -/
theorem Ascending.eq_of_mem_iff {ts us : List Text} (ht : Ascending ts) (hu : Ascending us)
    (h : ∀ t, t ∈ ts ↔ t ∈ us) : ts = us :=
  List.Pairwise.eq_of_mem_iff ht hu h

end Text

/-- A set of texts is told by its members. -/
theorem TextSet.ext_mem {s u : TextSet} (h : ∀ t, t ∈ s ↔ t ∈ u) : s = u := by
  obtain ⟨ts, hts⟩ := s
  obtain ⟨us, hus⟩ := u
  obtain rfl : ts = us := hts.eq_of_mem_iff hus h
  rfl

theorem TextSet.mem_ofList {t : Text} {ts : List Text} : t ∈ TextSet.ofList ts ↔ t ∈ ts := by
  have hfold : ∀ s : TextSet, t ∈ ts.foldl (fun s t => s.insert t) s ↔ t ∈ s ∨ t ∈ ts := by
    induction ts with
    | nil => simp
    | cons u ts ih =>
      intro s
      rw [List.foldl_cons, ih, TextSet.mem_insert, List.mem_cons, or_comm (a := t = u), or_assoc]
  rw [TextSet.ofList, hfold]
  exact or_iff_right TextSet.not_mem_empty

end ImportClosure
