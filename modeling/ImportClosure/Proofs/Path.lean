import ImportClosure.Path
import ImportClosure.Proofs.Text
/-!
Normal forms of paths.

A path in normal form is a number of leading slashes and a list of components, rendered. The
list is built from its end, so the condition on it is stated of the list read backwards:
`Path.Stack` says that names may stand on anything, and that dots that climb stand only on such
dots and only in a relative path. Pushing a component keeps a stack a stack, and a stack pushed
component by component comes out as it is: so normalizing twice is normalizing once.

A suffix such as `.js` written after a normal path gives a normal path again, even after `/`, `.`
or `..`, where it makes a name of its own (`IsNormal.append_suffix`).
-/

namespace ImportClosure.Path

/-! ## Components in normal form -/

/-- A component that stands for a name. -/
structure IsName (c : Text) : Prop where
  ne_nil : c ≠ []
  ne_dot : c ≠ [dot]
  ne_dots : c ≠ [dot, dot]
  no_slash : slash ∉ c

/-- Components in normal form, last first. -/
inductive Stack (rooted : Bool) : List Text → Prop
  /-- No components. -/
  | nil : Stack rooted []
  /-- A name on top. -/
  | name {c : Text} {done : List Text} (hc : IsName c) (h : Stack rooted done) :
    Stack rooted (c :: done)
  /-- Dots that climb, on nothing but their like. -/
  | climb {done : List Text} (hr : rooted = false) (hd : ∀ c ∈ done, c = [dot, dot])
      (h : Stack rooted done) :
    Stack rooted ([dot, dot] :: done)

namespace Stack

variable {rooted : Bool} {done : List Text}

theorem tail {c : Text} (h : Stack rooted (c :: done)) : Stack rooted done := by
  cases h with
  | name _ h => exact h
  | climb _ _ h => exact h

theorem no_slash (h : Stack rooted done) : ∀ c ∈ done, slash ∉ c := by
  induction h with
  | nil => simp
  | name hc _ ih => exact List.forall_mem_cons.2 ⟨hc.no_slash, ih⟩
  | climb _ _ _ ih => exact List.forall_mem_cons.2 ⟨by decide, ih⟩

theorem ne_nil (h : Stack rooted done) : ∀ c ∈ done, c ≠ [] := by
  induction h with
  | nil => simp
  | name hc _ ih => exact List.forall_mem_cons.2 ⟨hc.ne_nil, ih⟩
  | climb _ _ _ ih => exact List.forall_mem_cons.2 ⟨by decide, ih⟩

theorem ne_dot (h : Stack rooted done) : ∀ c ∈ done, c ≠ [dot] := by
  induction h with
  | nil => simp
  | name hc _ ih => exact List.forall_mem_cons.2 ⟨hc.ne_dot, ih⟩
  | climb _ _ _ ih => exact List.forall_mem_cons.2 ⟨by decide, ih⟩

end Stack

/-! ## Pushing components -/

theorem pushComponent_name {rooted : Bool} {done : List Text} {c : Text} (hc : IsName c) :
    pushComponent rooted done c = c :: done := by
  unfold pushComponent
  rw [if_neg (not_or.2 ⟨hc.ne_nil, hc.ne_dot⟩), if_neg hc.ne_dots]

/-- An empty component changes nothing. -/
theorem pushComponent_nil (rooted : Bool) (done : List Text) :
    pushComponent rooted done [] = done :=
  if_pos (Or.inl rfl)

/-- A stack stays a stack. -/
theorem stack_pushComponent {rooted : Bool} {done : List Text} {c : Text} (hc : slash ∉ c)
    (h : Stack rooted done) : Stack rooted (pushComponent rooted done c) := by
  unfold pushComponent
  split
  · exact h
  · rename_i hne
    rw [not_or] at hne
    split
    · rename_i hdots
      subst hdots
      cases h with
      | nil =>
        cases rooted with
        | true => exact Stack.nil
        | false => exact Stack.climb rfl (by simp) Stack.nil
      | name hn h =>
        -- the dots cancel the name below them
        simp only [if_neg hn.ne_dots]
        exact h
      | climb hr hd h =>
        simp only [if_true]
        exact Stack.climb hr (List.forall_mem_cons.2 ⟨rfl, hd⟩) (Stack.climb hr hd h)
    · rename_i hdots
      exact Stack.name ⟨hne.1, hne.2, hdots, hc⟩ h

theorem stack_foldl_pushComponent {rooted : Bool} {cs done : List Text}
    (hcs : ∀ c ∈ cs, slash ∉ c) (h : Stack rooted done) :
    Stack rooted (cs.foldl (pushComponent rooted) done) := by
  induction cs generalizing done with
  | nil => exact h
  | cons c cs ih =>
    have hc := List.forall_mem_cons.1 hcs
    rw [List.foldl_cons]
    exact ih hc.2 (stack_pushComponent hc.1 h)

/-- The components of a path are in normal form. -/
theorem stack_collapse (rooted : Bool) (p : Text) :
    Stack rooted (collapse rooted (p.splitOn slash)).reverse := by
  unfold collapse
  rw [List.reverse_reverse]
  exact stack_foldl_pushComponent (fun c hc => Text.not_mem_of_mem_splitOn hc) Stack.nil

/-- Components in normal form stay as they are. -/
theorem collapse_of_stack {rooted : Bool} {cs : List Text} (h : Stack rooted cs.reverse) :
    collapse rooted cs = cs := by
  -- the induction is on the stack, so the components are pushed from its bottom
  have hpush : ∀ done, Stack rooted done →
      done.reverse.foldl (pushComponent rooted) [] = done := by
    intro done hdone
    induction hdone with
    | nil => rfl
    | name hc _ ih =>
      rw [List.reverse_cons, List.foldl_append, ih]
      exact pushComponent_name hc
    | @climb done hr hd _ ih =>
      rw [List.reverse_cons, List.foldl_append, ih, hr]
      -- dots that climb do not cancel dots that climb
      cases done with
      | nil => rfl
      | cons c done =>
        rw [hd c List.mem_cons_self]
        rfl
  unfold collapse
  rw [← List.reverse_reverse cs, hpush _ h, List.reverse_reverse]

theorem collapse_replicate_append (rooted : Bool) (n : Nat) (cs : List Text) :
    collapse rooted (List.replicate n [] ++ cs) = collapse rooted cs := by
  induction n with
  | zero => rfl
  | succ n ih =>
    rw [← ih]
    unfold collapse
    rw [List.replicate_succ, List.cons_append, List.foldl_cons, pushComponent_nil]

/-! ## Rendered components -/

theorem rootSlashes_le_two (p : Text) : rootSlashes p ≤ 2 := by
  unfold rootSlashes
  dsimp only
  split <;> omega

theorem rootSlashes_replicate_append {n : Nat} {c : CodePoint} {t : Text} (hn : n ≤ 2)
    (hc : c ≠ slash) : rootSlashes (List.replicate n slash ++ c :: t) = n := by
  have htake : (List.replicate n slash ++ c :: t).takeWhile (· = slash)
      = List.replicate n slash := by
    rw [List.takeWhile_append_of_pos, List.takeWhile_cons_of_neg (by simpa using hc),
      List.append_nil]
    intro d hd
    simpa using List.eq_of_mem_replicate hd
  unfold rootSlashes
  rw [htake, List.length_replicate]
  dsimp only
  split <;> omega

theorem splitOn_replicate_append (n : Nat) (t : Text) :
    Text.splitOn slash (List.replicate n slash ++ t)
      = List.replicate n [] ++ Text.splitOn slash t := by
  induction n with
  | zero => rfl
  | succ n ih =>
    rw [List.replicate_succ, List.replicate_succ, List.cons_append, List.cons_append, ← ih]
    exact Text.splitOn_cons_self slash _

/-- Where there is a component, rendering is joining. -/
theorem render_of_ne_nil {n : Nat} {cs : List Text} (hne : cs ≠ []) (h : ∀ c ∈ cs, c ≠ []) :
    render n cs = List.replicate n slash ++ Text.joinWith [slash] cs := by
  obtain ⟨w, ws, rfl⟩ := List.exists_cons_of_ne_nil hne
  obtain ⟨c, w, rfl⟩ := List.exists_cons_of_ne_nil (h w List.mem_cons_self)
  have hjoin : Text.joinWith [slash] ((c :: w) :: ws) = c :: Text.joinWith [slash] (w :: ws) :=
    List.intercalate_cons_cons_left
  unfold render
  rw [hjoin]
  split
  · rename_i heq
    simp at heq
  · rfl

/-- The root is read back as it was written. -/
theorem rootSlashes_render_append {n : Nat} {cs : List Text} {t : Text} (hn : n ≤ 2)
    (hcs : cs ≠ []) (hne : ∀ c ∈ cs, c ≠ []) (hslash : ∀ c ∈ cs, slash ∉ c) :
    rootSlashes (render n cs ++ t) = n := by
  rw [render_of_ne_nil hcs hne]
  obtain ⟨w, ws, rfl⟩ := List.exists_cons_of_ne_nil hcs
  obtain ⟨c, v, rfl⟩ := List.exists_cons_of_ne_nil (hne w List.mem_cons_self)
  -- the first component begins with no slash
  have hc : c ≠ slash := fun heq => hslash _ List.mem_cons_self (heq ▸ List.mem_cons_self)
  have hjoin : Text.joinWith [slash] ((c :: v) :: ws) = c :: Text.joinWith [slash] (v :: ws) :=
    List.intercalate_cons_cons_left
  rw [hjoin, List.append_assoc]
  exact rootSlashes_replicate_append hn hc

/-- The components are read back as they were written. -/
theorem splitOn_render {n : Nat} {cs : List Text} (hcs : cs ≠ []) (hne : ∀ c ∈ cs, c ≠ [])
    (hslash : ∀ c ∈ cs, slash ∉ c) :
    (render n cs).splitOn slash = List.replicate n [] ++ cs := by
  rw [render_of_ne_nil hcs hne, splitOn_replicate_append, Text.splitOn_joinWith hslash hcs]

/-- A rendered list of components in normal form is in normal form. -/
theorem normalize_render {n : Nat} {cs : List Text} (hn : n ≤ 2)
    (h : Stack (decide (0 < n)) cs.reverse) : normalize (render n cs) = render n cs := by
  by_cases hcs : cs = []
  · subst hcs
    have hn : n = 0 ∨ n = 1 ∨ n = 2 := by omega
    rcases hn with rfl | rfl | rfl <;> decide
  · have hslash : ∀ c ∈ cs, slash ∉ c := fun c hc => h.no_slash c (List.mem_reverse.2 hc)
    have hne : ∀ c ∈ cs, c ≠ [] := fun c hc => h.ne_nil c (List.mem_reverse.2 hc)
    have hroot := rootSlashes_render_append (t := []) hn hcs hne hslash
    rw [List.append_nil] at hroot
    unfold normalize
    rw [hroot, splitOn_render hcs hne hslash, collapse_replicate_append, collapse_of_stack h]

/-! ## Normal paths -/

/-- The path is its own normal form. -/
def IsNormal (p : Text) : Prop := normalize p = p

instance (p : Text) : Decidable (IsNormal p) := inferInstanceAs (Decidable (normalize p = p))

theorem isNormal_normalize (p : Text) : IsNormal (normalize p) :=
  normalize_render (rootSlashes_le_two p) (stack_collapse _ p)

theorem isName_of_length {c : Text} (hlen : 2 < c.length) (hc : slash ∉ c) : IsName c := by
  refine ⟨?_, ?_, ?_, hc⟩
  · intro h
    simp [h] at hlen
  · intro h
    simp [h] at hlen
  · intro h
    simp [h] at hlen

/-- What follows the components of a normal path makes its last component a name. -/
theorem render_append_suffix {n : Nat} {cs : List Text} {e : Text} (hn : n ≤ 2)
    (hlen : 2 < e.length) (he : slash ∉ e) (h : Stack (decide (0 < n)) cs.reverse) :
    ∃ cs', render n cs ++ e = render n cs' ∧ Stack (decide (0 < n)) cs'.reverse := by
  have hne : ∀ c : Text, c ++ e ≠ [] := by
    intro c heq
    have hlen' : (c ++ e).length = 0 := by rw [heq, List.length_nil]
    rw [List.length_append] at hlen'
    omega
  have hname : ∀ c : Text, slash ∉ c → IsName (c ++ e) := by
    intro c hc
    refine isName_of_length ?_ (by simp [hc, he])
    rw [List.length_append]
    omega
  rcases List.eq_nil_or_concat' cs with rfl | ⟨cs, c, rfl⟩
  · -- after `.` the dot becomes part of the name, after a root the suffix is a name by itself
    have hbase : ∃ c : Text, slash ∉ c ∧ render n [] ++ e = List.replicate n slash ++ (c ++ e) := by
      have hn : n = 0 ∨ n = 1 ∨ n = 2 := by omega
      rcases hn with rfl | rfl | rfl
      · exact ⟨[dot], by decide, rfl⟩
      · exact ⟨[], List.not_mem_nil, rfl⟩
      · exact ⟨[], List.not_mem_nil, rfl⟩
    obtain ⟨c, hc, heq⟩ := hbase
    refine ⟨[c ++ e], ?_, Stack.name (hname c hc) Stack.nil⟩
    rw [heq, render_of_ne_nil (List.cons_ne_nil _ _) (by simpa using hne c)]
    exact congrArg _ List.intercalate_singleton.symm
  · have hcs : ∀ d ∈ cs ++ [c], d ≠ [] := fun d hd => h.ne_nil d (List.mem_reverse.2 hd)
    rw [List.reverse_append, List.reverse_singleton, List.singleton_append] at h
    have hc : slash ∉ c := h.no_slash c List.mem_cons_self
    refine ⟨cs ++ [c ++ e], ?_, ?_⟩
    · rw [render_of_ne_nil (by simp) hcs, render_of_ne_nil (by simp), List.append_assoc,
        Text.joinWith_concat_append]
      intro d hd
      rcases List.mem_append.1 hd with hd | hd
      · exact hcs d (List.mem_append_left _ hd)
      · rw [List.mem_singleton.1 hd]
        exact hne c
    · rw [List.reverse_append, List.reverse_singleton, List.singleton_append]
      exact Stack.name (hname c hc) h.tail

/-- **Suffixes.** A suffix of three or more code points, none of them a slash, written after a
normal path gives a normal path. -/
theorem IsNormal.append_suffix {p e : Text} (hp : IsNormal p) (hlen : 2 < e.length)
    (he : slash ∉ e) : IsNormal (p ++ e) := by
  have hn := rootSlashes_le_two p
  obtain ⟨cs, heq, hs⟩ := render_append_suffix hn hlen he (stack_collapse _ p)
  have hpe : p ++ e = render (rootSlashes p) cs := by
    rw [← heq]
    exact congrArg (· ++ e) hp.symm
  rw [hpe]
  exact normalize_render hn hs

end ImportClosure.Path
