import ImportClosure.Proofs.LeadingSlashes
/-!
Specifiers that are followed in steps.

The normal form of a path is what its components make of an empty stack, under a root or without
one (`pushPath`). Joining a relative path onto a directory leaves the root to the directory and puts
the components of the path behind those of the directory; empty components and dots change no
stack, and the components of a normal form make the stack again from which it was rendered. So a
candidate is the stack of the directory with the components of the specifier pushed on it
(`ofSpecifier_eq_render`), and how the specifier is cut at its slashes, or how many slashes it
begins with, makes no difference (`ofSpecifier_composes`).
-/

namespace ImportClosure

namespace Path

variable {rooted : Bool} {done : List Text} {d p t : Text}

/-! ## Pushing the components of a path -/

/-- The stack that the components of a path make of a stack. -/
def pushPath (rooted : Bool) (done : List Text) (p : Text) : List Text :=
  (p.splitOn slash).foldl (pushComponent rooted) done

theorem normalize_eq_render (p : Text) :
    normalize p = render (rootSlashes p) (pushPath (decide (0 < rootSlashes p)) [] p).reverse :=
  rfl

theorem stack_pushPath (rooted : Bool) (p : Text) : Stack rooted (pushPath rooted [] p) :=
  stack_foldl_pushComponent (fun _ hc => Text.not_mem_of_mem_splitOn hc) Stack.nil

theorem pushPath_nil : pushPath rooted done [] = done := pushComponent_nil rooted done

/-- What stands before a slash is pushed first, and then what follows. -/
theorem pushPath_append_slash :
    pushPath rooted done (p ++ slash :: t) = pushPath rooted (pushPath rooted done p) t := by
  unfold pushPath
  rw [Text.splitOn_append_cons, List.foldl_append]

theorem pushPath_slash : pushPath rooted done (slash :: t) = pushPath rooted done t := by
  have hpush : pushPath rooted done ([] ++ slash :: t)
      = pushPath rooted (pushPath rooted done []) t := pushPath_append_slash
  rwa [pushPath_nil] at hpush

theorem pushPath_dot_slash :
    pushPath rooted done (dot :: slash :: t) = pushPath rooted done t :=
  pushPath_append_slash (p := [dot])

theorem pushPath_dropWhile_slash :
    pushPath rooted done (t.dropWhile (· = slash)) = pushPath rooted done t := by
  induction t with
  | nil => rfl
  | cons c t ih =>
    by_cases hc : c = slash
    · rw [hc, List.dropWhile_cons_of_pos (by simp), ih, pushPath_slash]
    · rw [List.dropWhile_cons_of_neg (by simpa using hc)]

/-- A slash at the end of a directory makes an empty component, which changes nothing. -/
theorem pushPath_append_of_getLast? (hd : d = [] ∨ d.getLast? = some slash) :
    pushPath rooted done (d ++ t) = pushPath rooted (pushPath rooted done d) t := by
  rcases hd with rfl | hlast
  · rw [pushPath_nil, List.nil_append]
  · obtain ⟨d, rfl⟩ := List.getLast?_eq_some_iff.1 hlast
    rw [List.append_assoc, List.singleton_append, pushPath_append_slash, pushPath_append_slash,
      pushPath_nil]

/-- The components of a relative path are pushed onto those of the directory. -/
theorem pushPath_join (ht : t.head? ≠ some slash) :
    pushPath rooted done (join d t) = pushPath rooted (pushPath rooted done d) t := by
  unfold join
  rw [if_neg ht]
  split
  · rename_i hd
    exact pushPath_append_of_getLast? hd
  · exact pushPath_append_slash

/-! ## Normal forms -/

theorem rootSlashes_normalize (p : Text) : rootSlashes (normalize p) = rootSlashes p := by
  rw [← (isNormal_normalize p).leadingSlashes_eq, leadingSlashes_normalize]

theorem rootSlashes_join (ht : t.head? ≠ some slash) : rootSlashes (join d t) = rootSlashes d :=
  rootSlashes_congr (leadingSlashes_join d ht)

/-- The components of a rendered stack make the stack again. -/
theorem pushPath_render {n : Nat} (hn : n ≤ 2) (h : Stack (decide (0 < n)) done) :
    pushPath (decide (0 < n)) [] (render n done.reverse) = done := by
  by_cases hne : done = []
  · subst hne
    have hn : n = 0 ∨ n = 1 ∨ n = 2 := by omega
    rcases hn with rfl | rfl | rfl <;> rfl
  · have hsplit := splitOn_render (n := n) (List.reverse_ne_nil_iff.2 hne)
      (fun c hc => h.ne_nil c (List.mem_reverse.1 hc))
      fun c hc => h.no_slash c (List.mem_reverse.1 hc)
    have hcollapse : collapse (decide (0 < n)) (List.replicate n [] ++ done.reverse)
        = done.reverse := by
      rw [collapse_replicate_append]
      exact collapse_of_stack (by rwa [List.reverse_reverse])
    unfold pushPath
    rw [hsplit]
    exact List.reverse_inj.1 hcollapse

theorem pushPath_normalize (p : Text) :
    pushPath (decide (0 < rootSlashes p)) [] (normalize p)
      = pushPath (decide (0 < rootSlashes p)) [] p :=
  pushPath_render (rootSlashes_le_two p) (stack_pushPath _ p)

end Path

namespace Candidate

open ImportClosure.Path (slash dot normalize join render rootSlashes pushPath)

/-! ## Candidates -/

/-- **Candidates.** The components of a specifier are pushed onto those of the directory, under the
root of the directory. -/
theorem ofSpecifier_eq_render (d s : Text) :
    ofSpecifier d s = render (rootSlashes d)
      (pushPath (decide (0 < rootSlashes d)) (pushPath (decide (0 < rootSlashes d)) [] d)
        s).reverse := by
  have hrel := head?_dropWhile_slash s
  unfold ofSpecifier
  rw [Path.normalize_eq_render, Path.rootSlashes_join hrel, Path.pushPath_join hrel,
    Path.pushPath_dropWhile_slash]

/-- Specifiers with the same components have the same candidates. -/
theorem ofSpecifier_congr {d s t : Text}
    (h : ∀ rooted done, pushPath rooted done s = pushPath rooted done t) :
    ofSpecifier d s = ofSpecifier d t := by
  rw [ofSpecifier_eq_render, ofSpecifier_eq_render, h]

theorem ofSpecifier_append_slash (d s t : Text) :
    ofSpecifier d (s ++ slash :: t) = ofSpecifier (ofSpecifier d s) t := by
  have hroot : rootSlashes (ofSpecifier d s) = rootSlashes d := by
    unfold ofSpecifier
    rw [Path.rootSlashes_normalize, Path.rootSlashes_join (head?_dropWhile_slash s)]
  have hstack : pushPath (decide (0 < rootSlashes d)) [] (ofSpecifier d s)
      = pushPath (decide (0 < rootSlashes d)) (pushPath (decide (0 < rootSlashes d)) [] d) s := by
    have hnormal := Path.pushPath_normalize (join d (s.dropWhile (· = slash)))
    rwa [Path.rootSlashes_join (head?_dropWhile_slash s),
      Path.pushPath_join (head?_dropWhile_slash s), Path.pushPath_dropWhile_slash] at hnormal
  calc ofSpecifier d (s ++ slash :: t)
    _ = render (rootSlashes d) (pushPath (decide (0 < rootSlashes d))
          (pushPath (decide (0 < rootSlashes d)) (pushPath (decide (0 < rootSlashes d)) [] d) s)
          t).reverse := by rw [ofSpecifier_eq_render, Path.pushPath_append_slash]
    _ = ofSpecifier (ofSpecifier d s) t := by rw [ofSpecifier_eq_render, hroot, hstack]

theorem ofSpecifier_replicate_slash (d s : Text) (k : Nat) :
    ofSpecifier d (List.replicate k slash ++ s) = ofSpecifier d s := by
  induction k with
  | zero => rfl
  | succ k ih =>
    rw [List.replicate_succ, List.cons_append, ← ih]
    exact ofSpecifier_congr fun _ _ => Path.pushPath_slash

theorem ofSpecifier_dot_slash (d s : Text) :
    ofSpecifier d (dot :: slash :: s) = ofSpecifier d s :=
  ofSpecifier_congr fun _ _ => Path.pushPath_dot_slash

theorem prefix_join {d t : Text} (ht : t.head? ≠ some slash) : d <+: join d t := by
  unfold join
  rw [if_neg ht]
  split
  · exact List.prefix_append d t
  · exact List.prefix_append d (slash :: t)

/-- **Steps.** A specifier may be followed in one step, or one part after the other where it has a
slash; slashes at its beginning are as good as `./`, or as nothing. The directory is never left for
the root on account of them: it is what the path begins with whose normal form the candidate is. -/
theorem ofSpecifier_composes (d s t : Text) (k : Nat) :
    ofSpecifier d (s ++ slash :: t) = ofSpecifier (ofSpecifier d s) t
      ∧ ofSpecifier d (List.replicate k slash ++ s) = ofSpecifier d (dot :: slash :: s)
      ∧ ofSpecifier d (dot :: slash :: s) = ofSpecifier d s
      ∧ ofSpecifier d (slash :: s) = normalize (join d (dot :: slash :: s))
      ∧ d <+: join d (dot :: slash :: s) := by
  have hrel : (dot :: slash :: s).head? ≠ some slash :=
    fun h => absurd (Option.some.inj h) (by decide)
  refine ⟨ofSpecifier_append_slash d s t, ?_, ofSpecifier_dot_slash d s, ?_, prefix_join hrel⟩
  · rw [ofSpecifier_replicate_slash, ofSpecifier_dot_slash]
  · calc ofSpecifier d (slash :: s)
      _ = ofSpecifier d s := ofSpecifier_replicate_slash d s 1
      _ = ofSpecifier d (dot :: slash :: s) := (ofSpecifier_dot_slash d s).symm
      _ = normalize (join d (dot :: slash :: s)) := rfl

/-- The specifier `a//../../b` leads out of a relative directory, and the part `a` into it. -/
example : ofSpecifier (ofSpecifier ['r'] ['a']) [slash, dot, dot, slash, dot, dot, slash, 'b']
    = ['b'] := by decide

end Candidate

end ImportClosure
