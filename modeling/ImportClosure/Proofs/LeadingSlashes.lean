import ImportClosure.Proofs.Candidate
import Mathlib.Data.List.DropRight
/-!
The leading slashes of a path.

Whether a path is relative, absolute or at the other root is told by the number of its leading
slashes, and nothing that is done on the way from a file to the files it imports changes that
number. The directory of a path begins as the path does; a path joined onto a directory begins as
the directory does, as long as it has no leading slash of its own; a normal form keeps the number if
it was two at most (`leadingSlashes_normalize`); and a suffix is written at the other end. Hence the
candidates of a file and all that is asked for on account of them are as canonical as the path of
the file (`IsCanonical.ofSpecifier`, `IsCanonical.of_mem_attempts`), whatever slashes a specifier
begins with.
-/

namespace ImportClosure

namespace Path

variable {p t d : Text}

/-! ## Counting -/

/-- The number of leading slashes. -/
def leadingSlashes (p : Text) : Nat := (p.takeWhile (· = slash)).length

theorem leadingSlashes_cons_slash (p : Text) :
    leadingSlashes (slash :: p) = leadingSlashes p + 1 := by
  unfold leadingSlashes
  rw [List.takeWhile_cons_of_pos (by simp), List.length_cons]

theorem leadingSlashes_of_relative (h : p.head? ≠ some slash) : leadingSlashes p = 0 := by
  cases p with
  | nil => rfl
  | cons c p =>
    have hc : c ≠ slash := fun heq => h (congrArg some heq)
    unfold leadingSlashes
    rw [List.takeWhile_cons_of_neg (by simpa using hc), List.length_nil]

/-- A path with leading slashes is absolute. -/
theorem leadingSlashes_pos_iff : 0 < leadingSlashes p ↔ p.head? = some slash := by
  constructor
  · intro hpos
    by_contra hrel
    rw [leadingSlashes_of_relative hrel] at hpos
    exact absurd hpos (by omega)
  · intro habs
    obtain ⟨t, rfl⟩ := List.head?_eq_some_iff.1 habs
    rw [leadingSlashes_cons_slash]
    omega

/-- What begins with no slash adds none. -/
theorem leadingSlashes_append (ht : t.head? ≠ some slash) :
    leadingSlashes (p ++ t) = leadingSlashes p := by
  induction p with
  | nil => exact leadingSlashes_of_relative ht
  | cons c p ih =>
    by_cases hc : c = slash
    · rw [hc, List.cons_append, leadingSlashes_cons_slash, leadingSlashes_cons_slash, ih]
    · rw [leadingSlashes_of_relative (by simpa using hc),
        leadingSlashes_of_relative (by simpa using hc)]

/-- After something else than a slash there are no leading slashes to add to. -/
theorem leadingSlashes_append_of_ne {c : CodePoint} (hc : c ∈ p) (hne : c ≠ slash) (t : Text) :
    leadingSlashes (p ++ t) = leadingSlashes p := by
  induction p with
  | nil => exact absurd hc List.not_mem_nil
  | cons d p ih =>
    by_cases hd : d = slash
    · have hp : c ∈ p := (List.mem_cons.1 hc).resolve_left (fun h => hne (h.trans hd))
      rw [hd, List.cons_append, leadingSlashes_cons_slash, leadingSlashes_cons_slash, ih hp]
    · rw [leadingSlashes_of_relative (by simpa using hd),
        leadingSlashes_of_relative (by simpa using hd)]

theorem leadingSlashes_replicate (n : Nat) : leadingSlashes (List.replicate n slash) = n := by
  induction n with
  | zero => rfl
  | succ n ih => rw [List.replicate_succ, leadingSlashes_cons_slash, ih]

/-! ## Normal forms -/

/-- The slashes that a normal form keeps are told by the leading ones. -/
theorem rootSlashes_congr (h : leadingSlashes d = leadingSlashes p) :
    rootSlashes d = rootSlashes p := by
  unfold leadingSlashes at h
  unfold rootSlashes
  rw [h]

theorem leadingSlashes_render {n : Nat} {cs : List Text} (hn : n ≤ 2) (hne : ∀ c ∈ cs, c ≠ [])
    (hslash : ∀ c ∈ cs, slash ∉ c) : leadingSlashes (render n cs) = n := by
  by_cases hcs : cs = []
  · subst hcs
    have hn : n = 0 ∨ n = 1 ∨ n = 2 := by omega
    rcases hn with rfl | rfl | rfl <;> decide
  · rw [render_of_ne_nil hcs hne, leadingSlashes_append, leadingSlashes_replicate]
    exact Text.head?_joinWith_ne hcs hne hslash

/-- A normal form has the leading slashes that are kept, and no more. -/
theorem leadingSlashes_normalize (p : Text) : leadingSlashes (normalize p) = rootSlashes p := by
  have hstack := stack_collapse (decide (0 < rootSlashes p)) p
  exact leadingSlashes_render (rootSlashes_le_two p)
    (fun c hc => hstack.ne_nil c (List.mem_reverse.2 hc))
    fun c hc => hstack.no_slash c (List.mem_reverse.2 hc)

theorem IsNormal.leadingSlashes_eq (h : IsNormal p) : leadingSlashes p = rootSlashes p := by
  have hnormal : normalize p = p := h
  rw [← leadingSlashes_normalize, hnormal]

/-! ## Directories -/

/-- A path up to its last slash begins as the whole path does. -/
theorem leadingSlashes_rdropWhile (p : Text) :
    leadingSlashes (p.rdropWhile (· ≠ slash)) = leadingSlashes p := by
  have hlast : (p.rtakeWhile (· ≠ slash)).head? ≠ some slash := by
    intro hhead
    simpa using List.mem_rtakeWhile_imp (List.mem_of_head? hhead)
  have happend := leadingSlashes_append (p := p.rdropWhile (· ≠ slash)) hlast
  rw [List.rdropWhile_append_rtakeWhile] at happend
  exact happend.symm

/-- The directory of a path begins as the path does. -/
theorem leadingSlashes_directory (p : Text) : leadingSlashes (directory p) = leadingSlashes p := by
  have hdirectory : directory p
      = if (p.rdropWhile (· ≠ slash)).all (· = slash) then p.rdropWhile (· ≠ slash)
        else (p.rdropWhile (· ≠ slash)).rdropWhile (· = slash) := rfl
  rw [hdirectory, ← leadingSlashes_rdropWhile p]
  generalize p.rdropWhile (· ≠ slash) = head
  by_cases hall : head.all (· = slash) = true
  · rw [if_pos hall]
  · rw [if_neg hall]
    -- without the slashes at its end the directory still has something else in it
    have hne : head.rdropWhile (· = slash) ≠ [] := by
      rwa [Ne, List.rdropWhile_eq_nil_iff, ← List.all_eq_true]
    have hlast := List.rdropWhile_last_not (fun c => decide (c = slash)) head hne
    obtain ⟨slashes, hhead⟩ := List.rdropWhile_prefix (fun c => decide (c = slash)) (l := head)
    have hwhole : leadingSlashes (head.rdropWhile (· = slash) ++ slashes)
        = leadingSlashes (head.rdropWhile (· = slash)) :=
      leadingSlashes_append_of_ne (List.getLast_mem hne) (by simpa using hlast) slashes
    rw [hhead] at hwhole
    exact hwhole.symm

/-- **Joining.** A relative path seen from a directory begins as the directory does. -/
theorem leadingSlashes_join (d : Text) (ht : t.head? ≠ some slash) :
    leadingSlashes (join d t) = leadingSlashes d := by
  unfold join
  rw [if_neg ht]
  split
  · exact leadingSlashes_append ht
  · rename_i hd
    obtain ⟨hne, hlast⟩ := not_or.1 hd
    -- the slash in between stands behind something else
    refine leadingSlashes_append_of_ne (List.getLast_mem hne) (fun heq => hlast ?_) _
    rw [List.getLast?_eq_some_getLast hne, heq]

theorem leadingSlashes_join_directory (p : Text) (ht : t.head? ≠ some slash) :
    leadingSlashes (join (directory p) t) = leadingSlashes p :=
  (leadingSlashes_join _ ht).trans (leadingSlashes_directory p)

/-! ## Canonical paths -/

/-- The path is in normal form and has `n` leading slashes. -/
structure IsCanonical (n : Nat) (p : Text) : Prop where
  normal : IsNormal p
  slashes : leadingSlashes p = n

instance (n : Nat) (p : Text) : Decidable (IsCanonical n p) :=
  decidable_of_iff (IsNormal p ∧ leadingSlashes p = n)
    ⟨fun h => ⟨h.1, h.2⟩, fun h => ⟨h.normal, h.slashes⟩⟩

variable {n : Nat} {v : Variant} {c q : Text}

theorem isCanonical_normalize (p : Text) :
    IsCanonical (leadingSlashes (normalize p)) (normalize p) :=
  ⟨isNormal_normalize p, rfl⟩

namespace IsCanonical

theorem le_two (h : IsCanonical n p) : n ≤ 2 := by
  rw [← h.slashes, h.normal.leadingSlashes_eq]
  exact rootSlashes_le_two p

/-- The candidate of a specifier begins as the path of the file does. -/
theorem ofSpecifier (h : IsCanonical n p) (specifier : Text) :
    IsCanonical n (Candidate.ofSpecifier (directory p) specifier) where
  normal := Candidate.isNormal_ofSpecifier _ _
  slashes := by
    have hrel := Candidate.head?_dropWhile_slash specifier
    calc leadingSlashes (Candidate.ofSpecifier (directory p) specifier)
      _ = rootSlashes (join (directory p) (specifier.dropWhile (· = slash))) :=
        leadingSlashes_normalize _
      _ = rootSlashes p := rootSlashes_congr (leadingSlashes_join_directory p hrel)
      _ = leadingSlashes p := h.normal.leadingSlashes_eq.symm
      _ = n := h.slashes

/-- What is asked for on account of a candidate begins as the candidate does. -/
theorem of_mem_attempts (h : IsCanonical n c) (hq : q ∈ Candidate.attempts v c) :
    IsCanonical n q := by
  refine ⟨Candidate.isNormal_of_mem_attempts h.normal hq, ?_⟩
  rcases Candidate.mem_attempts_cases hq with rfl | ⟨e, _, he, rfl⟩
  · exact h.slashes
  · rw [leadingSlashes_append, h.slashes]
    exact fun hhead => he (List.mem_of_head? hhead)

end IsCanonical

/-- The specifier `//../../x` in a file at the other root does not leave it. -/
example : Candidate.ofSpecifier (directory [slash, slash, 'a'])
    [slash, slash, dot, dot, slash, dot, dot, slash, 'x'] = [slash, slash, 'x'] := by decide

end Path

end ImportClosure
