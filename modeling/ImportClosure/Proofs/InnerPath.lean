import ImportClosure.Proofs.Path
import ImportClosure.Variant
import Mathlib.Data.List.TakeWhile
import Mathlib.Logic.Embedding.Basic
/-!
Paths below a directory.

A path is *inner* if it names something below the directory from which it is read: it is normal,
relative, neither that directory itself nor a way out of it. Such a path is a list of names, joined
(`isInner_iff`), and so is the part of a directory's path that follows its root. Hence an inner path
written below a directory is a normal path, and everything that is done to paths commutes with
writing them below a directory (`under`): the directory of a file, joining, the extension, and
normalizing, as long as no dots climb out of the directory (`normalize_under`). These dots are what
sets a relative path apart, for they are kept in it and lost under a root.
-/

namespace ImportClosure

namespace Path

/-! ## Inner paths -/

/-- The path is not the directory it is read from, and does not begin by climbing out of it. -/
def IsBelow (p : Text) : Prop := p ≠ [dot] ∧ (p.splitOn slash).head? ≠ some [dot, dot]

/-- The path names something below the directory it is read from. -/
structure IsInner (p : Text) : Prop where
  normal : IsNormal p
  relative : p.head? ≠ some slash
  below : IsBelow p

/-- The path is normal and absolute, and more than a root. -/
structure IsBase (p : Text) : Prop where
  normal : IsNormal p
  absolute : p.head? = some slash
  ne_root : p ≠ [slash]
  ne_roots : p ≠ [slash, slash]

instance (p : Text) : Decidable (IsBelow p) :=
  inferInstanceAs (Decidable (p ≠ [dot] ∧ (p.splitOn slash).head? ≠ some [dot, dot]))

instance (p : Text) : Decidable (IsInner p) :=
  decidable_of_iff (IsNormal p ∧ p.head? ≠ some slash ∧ IsBelow p)
    ⟨fun h => ⟨h.1, h.2.1, h.2.2⟩, fun h => ⟨h.normal, h.relative, h.below⟩⟩

instance (p : Text) : Decidable (IsBase p) :=
  decidable_of_iff (IsNormal p ∧ p.head? = some slash ∧ p ≠ [slash] ∧ p ≠ [slash, slash])
    ⟨fun h => ⟨h.1, h.2.1, h.2.2.1, h.2.2.2⟩,
      fun h => ⟨h.normal, h.absolute, h.ne_root, h.ne_roots⟩⟩

/-! ## Lists of names -/

theorem Stack.of_names {rooted : Bool} {done : List Text} (h : ∀ c ∈ done, IsName c) :
    Stack rooted done := by
  induction done with
  | nil => exact Stack.nil
  | cons c done ih =>
    have hc := List.forall_mem_cons.1 h
    exact Stack.name hc.1 (ih hc.2)

/-- Dots that climb are at the bottom of a stack, if anywhere, and not under a root. -/
theorem Stack.isName {rooted : Bool} {done : List Text} (h : Stack rooted done)
    (hbottom : rooted = true ∨ done.getLast? ≠ some [dot, dot]) : ∀ c ∈ done, IsName c := by
  induction h with
  | nil => exact fun _ hc => absurd hc List.not_mem_nil
  | @name c done hc _ ih =>
    refine List.forall_mem_cons.2 ⟨hc, ih (hbottom.imp_right ?_)⟩
    intro hlast hdone
    rw [List.getLast?_cons, hdone] at hlast
    exact hlast rfl
  | @climb done hr hd _ _ =>
    exfalso
    rcases hbottom with htrue | hlast
    · rw [hr] at htrue
      exact Bool.false_ne_true htrue
    · have hdots : ∀ c ∈ [dot, dot] :: done, c = [dot, dot] :=
        List.forall_mem_cons.2 ⟨rfl, hd⟩
      obtain ⟨c, hc⟩ := Option.isSome_iff_exists.1
        (List.getLast?_isSome.2 (List.cons_ne_nil [dot, dot] done))
      rw [hdots c (List.mem_of_getLast? hc)] at hc
      exact hlast hc

theorem rootSlashes_of_relative {p : Text} (h : p.head? ≠ some slash) : rootSlashes p = 0 := by
  cases p with
  | nil => rfl
  | cons c t =>
    have hc : c ≠ slash := fun heq => h (congrArg some heq)
    unfold rootSlashes
    rw [List.takeWhile_cons_of_neg (by simpa using hc)]
    rfl

theorem rootSlashes_pos_of_absolute {p : Text} (h : p.head? = some slash) :
    0 < rootSlashes p := by
  cases p with
  | nil => exact absurd h nofun
  | cons c t =>
    have hc : c = slash := Option.some.inj h
    unfold rootSlashes
    rw [List.takeWhile_cons_of_pos (by simpa using hc), List.length_cons]
    dsimp only
    split <;> omega

/-- Joined names do not begin or end in a slash. -/
theorem joinWith_names {cs : List Text} (hne : cs ≠ []) (h : ∀ c ∈ cs, IsName c) :
    (Text.joinWith [slash] cs).head? ≠ some slash
      ∧ (Text.joinWith [slash] cs).getLast? ≠ some slash := by
  constructor
  · exact Text.head?_joinWith_ne hne (fun c hc => (h c hc).ne_nil) fun c hc => (h c hc).no_slash
  · obtain ⟨ws, w, rfl⟩ := (List.eq_nil_or_concat' cs).resolve_left hne
    have hw := h w (List.mem_append_right _ (List.mem_singleton_self w))
    obtain ⟨v, c, rfl⟩ := (List.eq_nil_or_concat' w).resolve_left hw.ne_nil
    rw [← Text.joinWith_concat_append, List.getLast?_append]
    intro hc
    exact hw.no_slash (Option.some.inj hc ▸ List.mem_append_right _ (List.mem_singleton_self c))

theorem render_names {n : Nat} {cs : List Text} (hne : cs ≠ []) (h : ∀ c ∈ cs, IsName c) :
    render n cs = List.replicate n slash ++ Text.joinWith [slash] cs :=
  render_of_ne_nil hne fun c hc => (h c hc).ne_nil

theorem splitOn_render_names {n : Nat} {cs : List Text} (hne : cs ≠ [])
    (h : ∀ c ∈ cs, IsName c) : (render n cs).splitOn slash = List.replicate n [] ++ cs :=
  splitOn_render hne (fun c hc => (h c hc).ne_nil) fun c hc => (h c hc).no_slash

/-- Components in normal form that do not lead out are names. -/
theorem names_of_isBelow {cs : List Text} (hs : Stack false cs.reverse)
    (h : IsBelow (render 0 cs)) : cs ≠ [] ∧ ∀ c ∈ cs, IsName c := by
  have hne : cs ≠ [] := by
    rintro rfl
    exact h.1 rfl
  have hsplit := splitOn_render (n := 0) hne
    (fun c hc => hs.ne_nil c (List.mem_reverse.2 hc))
    (fun c hc => hs.no_slash c (List.mem_reverse.2 hc))
  refine ⟨hne, fun c hc => hs.isName (Or.inr ?_) c (List.mem_reverse.2 hc)⟩
  rw [List.getLast?_reverse]
  have hclimb := h.2
  rwa [hsplit] at hclimb

theorem normalize_of_relative {p : Text} (h : p.head? ≠ some slash) :
    normalize p = render 0 (collapse false (p.splitOn slash)) := by
  unfold normalize
  rw [rootSlashes_of_relative h]
  rfl

/-- Inner paths are names, joined. -/
theorem isInner_iff {p : Text} :
    IsInner p ↔ ∃ cs, cs ≠ [] ∧ (∀ c ∈ cs, IsName c) ∧ p = Text.joinWith [slash] cs := by
  constructor
  · intro h
    have hp : render 0 (collapse false (p.splitOn slash)) = p :=
      (normalize_of_relative h.relative).symm.trans h.normal
    obtain ⟨hne, hnames⟩ := names_of_isBelow (stack_collapse false p) (hp.symm ▸ h.below)
    refine ⟨_, hne, hnames, ?_⟩
    rw [render_names hne hnames] at hp
    exact hp.symm
  · rintro ⟨cs, hne, hnames, rfl⟩
    have hsplit : (Text.joinWith [slash] cs).splitOn slash = cs :=
      Text.splitOn_joinWith (fun c hc => (hnames c hc).no_slash) hne
    refine ⟨?_, (joinWith_names hne hnames).1, ?_, ?_⟩
    · have hnormal := normalize_render (n := 0) (Nat.zero_le 2)
        (Stack.of_names fun c hc => hnames c (List.mem_reverse.1 hc))
      rwa [render_names hne hnames] at hnormal
    · intro hdot
      rw [hdot] at hsplit
      exact (hnames [dot] (hsplit ▸ List.mem_singleton_self _)).ne_dot rfl
    · rw [hsplit]
      intro hhead
      exact (hnames _ (List.mem_of_head? hhead)).ne_dots rfl

theorem isInner_normalize {p : Text} (hrel : p.head? ≠ some slash)
    (h : IsBelow (normalize p)) : IsInner (normalize p) := by
  rw [normalize_of_relative hrel] at h ⊢
  obtain ⟨hne, hnames⟩ := names_of_isBelow (stack_collapse false p) h
  exact isInner_iff.2 ⟨_, hne, hnames, render_names hne hnames⟩

/-- Such a directory has one leading slash or two, and a path of names below. -/
theorem IsBase.exists_names {root : Text} (h : IsBase root) :
    ∃ n bs, 0 < n ∧ n ≤ 2 ∧ bs ≠ [] ∧ (∀ b ∈ bs, IsName b) ∧ root = render n bs := by
  have hpos := rootSlashes_pos_of_absolute h.absolute
  have hle := rootSlashes_le_two root
  have hroot : render (rootSlashes root) (collapse true (root.splitOn slash)) = root := by
    have hnormal := h.normal
    unfold IsNormal normalize at hnormal
    rwa [decide_eq_true hpos] at hnormal
  have hstack := stack_collapse true root
  refine ⟨_, _, hpos, hle, ?_, ?_, hroot.symm⟩
  · intro hnil
    rw [hnil] at hroot
    have hn : rootSlashes root = 1 ∨ rootSlashes root = 2 := by omega
    rcases hn with hn | hn
    · rw [hn] at hroot
      exact h.ne_root hroot.symm
    · rw [hn] at hroot
      exact h.ne_roots hroot.symm
  · exact fun b hb => hstack.isName (Or.inl rfl) b (List.mem_reverse.2 hb)

/-! ## Writing a path below a directory -/

/-- The path below a directory. -/
def under (root : Text) : Text ↪ Text where
  toFun p := root ++ slash :: p
  inj' _ _ h := (List.cons.inj (List.append_cancel_left h)).2

variable {root p : Text}

theorem under_apply (root p : Text) : under root p = root ++ slash :: p := rfl

theorem under_append (root p t : Text) : under root p ++ t = under root (p ++ t) :=
  List.append_assoc root (slash :: p) t

theorem render_append {n : Nat} {bs cs : List Text} (hb : bs ≠ []) (hc : cs ≠ [])
    (hbs : ∀ b ∈ bs, IsName b) (hcs : ∀ c ∈ cs, IsName c) :
    render n (bs ++ cs) = under (render n bs) (Text.joinWith [slash] cs) := by
  have hnames : ∀ c ∈ bs ++ cs, IsName c := List.forall_mem_append.2 ⟨hbs, hcs⟩
  rw [under_apply, render_names hb hbs, render_names (by simp [hb]) hnames,
    Text.joinWith_append hb hc]
  simp only [List.append_assoc, List.singleton_append]

/-- An inner path below a directory is normal. -/
theorem IsBase.isNormal_under (h : IsBase root) (hp : IsInner p) : IsNormal (under root p) := by
  obtain ⟨n, bs, hpos, hle, hb, hbs, rfl⟩ := h.exists_names
  obtain ⟨cs, hc, hcs, rfl⟩ := isInner_iff.1 hp
  rw [← render_append hb hc hbs hcs]
  refine normalize_render hle (Stack.of_names fun c hm => ?_)
  exact (List.mem_append.1 (List.mem_reverse.1 hm)).elim (hbs c) (hcs c)

/-! ## Climbing dots -/

theorem dots_mem_pushComponent {done : List Text} {c : Text} (h : [dot, dot] ∈ done) :
    [dot, dot] ∈ pushComponent false done c := by
  unfold pushComponent
  split
  · exact h
  · split
    · cases done with
      | nil => exact absurd h List.not_mem_nil
      | cons last before =>
        by_cases hlast : last = [dot, dot]
        · simp only [if_pos hlast]
          exact List.mem_cons_of_mem _ h
        · simp only [if_neg hlast]
          exact (List.mem_cons.1 h).resolve_left (Ne.symm hlast)
    · exact List.mem_cons_of_mem _ h

theorem dots_mem_foldl_pushComponent {cs done : List Text} (h : [dot, dot] ∈ done) :
    [dot, dot] ∈ cs.foldl (pushComponent false) done := by
  induction cs generalizing done with
  | nil => exact h
  | cons c cs ih => exact ih (dots_mem_pushComponent h)

/-- Where dots do not climb out, it does not matter what they would climb into. -/
theorem pushComponent_append {done base : List Text} {c : Text}
    (h : [dot, dot] ∉ pushComponent false done c) :
    pushComponent true (done ++ base) c = pushComponent false done c ++ base := by
  unfold pushComponent at h ⊢
  split
  · rfl
  · rename_i hne
    rw [if_neg hne] at h
    split
    · rename_i hdots
      rw [if_pos hdots] at h
      cases done with
      | nil =>
        refine absurd ?_ h
        rw [hdots]
        exact List.mem_singleton_self _
      | cons last before =>
        by_cases hlast : last = [dot, dot]
        · simp only [if_pos hlast] at h
          exact absurd (List.mem_cons_of_mem _ (hlast ▸ List.mem_cons_self)) h
        · simp only [List.cons_append, if_neg hlast]
    · rfl

theorem foldl_pushComponent_append {cs done base : List Text}
    (h : [dot, dot] ∉ cs.foldl (pushComponent false) done) :
    cs.foldl (pushComponent true) (done ++ base)
      = cs.foldl (pushComponent false) done ++ base := by
  induction cs generalizing done with
  | nil => rfl
  | cons c cs ih =>
    rw [List.foldl_cons] at h
    rw [List.foldl_cons, List.foldl_cons, pushComponent_append, ih h]
    -- dots that climb out stay, so there are none at any time
    exact fun hdots => h (dots_mem_foldl_pushComponent hdots)

theorem collapse_append {bs ps : List Text} (hbs : ∀ b ∈ bs, IsName b)
    (h : [dot, dot] ∉ collapse false ps) :
    collapse true (bs ++ ps) = bs ++ collapse false ps := by
  have hbase : bs.foldl (pushComponent true) [] = bs.reverse :=
    List.reverse_eq_iff.1
      (collapse_of_stack (Stack.of_names fun b hb => hbs b (List.mem_reverse.1 hb)))
  have hpush : ps.foldl (pushComponent true) ([] ++ bs.reverse)
      = ps.foldl (pushComponent false) [] ++ bs.reverse :=
    foldl_pushComponent_append fun hdots => h (List.mem_reverse.2 hdots)
  rw [List.nil_append] at hpush
  unfold collapse
  rw [List.foldl_append, hbase, hpush, List.reverse_append, List.reverse_reverse]

/-- **Normal forms below a directory.** A relative path that does not lead out of the directory has
the same normal form below it. -/
theorem normalize_under (h : IsBase root) (hrel : p.head? ≠ some slash)
    (hp : IsBelow (normalize p)) : normalize (under root p) = under root (normalize p) := by
  obtain ⟨n, bs, hpos, hle, hb, hbs, rfl⟩ := h.exists_names
  rw [normalize_of_relative hrel] at hp ⊢
  obtain ⟨hc, hcs⟩ := names_of_isBelow (stack_collapse false p) hp
  have hroot : rootSlashes (under (render n bs) p) = n :=
    rootSlashes_render_append hle hb (fun b hm => (hbs b hm).ne_nil)
      fun b hm => (hbs b hm).no_slash
  have hsplit : (under (render n bs) p).splitOn slash
      = List.replicate n [] ++ (bs ++ p.splitOn slash) := by
    rw [under_apply, Text.splitOn_append_cons, splitOn_render_names hb hbs, List.append_assoc]
  -- the names of the directory are pushed first, and nothing that follows pops them
  unfold normalize
  rw [hroot, hsplit, collapse_replicate_append, decide_eq_true hpos,
    collapse_append hbs fun hdots => (hcs _ hdots).ne_dots rfl, render_append hb hc hbs hcs,
    render_names hc hcs]
  rfl

/-- The path `../d`, which leads out, is `/d` below the directory `/r`. -/
example : normalize (under [slash, 'r'] [dot, dot, slash, 'd']) = [slash, 'd'] := by decide

/-! ## Directories -/

/-- An inner path is a name, or a name below an inner path. -/
theorem IsInner.cases (h : IsInner p) :
    slash ∉ p ∨ ∃ d name, IsInner d ∧ slash ∉ name ∧ p = under d name := by
  obtain ⟨cs, hne, hnames, rfl⟩ := isInner_iff.1 h
  obtain ⟨ds, c, rfl⟩ := (List.eq_nil_or_concat' cs).resolve_left hne
  obtain ⟨hds, hc⟩ := List.forall_mem_append.1 hnames
  have hname := hc c (List.mem_singleton_self c)
  have hlast : Text.joinWith [slash] [c] = c := List.intercalate_singleton
  -- without a name before the last there is no directory to speak of
  by_cases hd : ds = []
  · rw [hd, List.nil_append, hlast]
    exact Or.inl hname.no_slash
  · refine Or.inr ⟨Text.joinWith [slash] ds, c, isInner_iff.2 ⟨ds, hd, hds, rfl⟩,
      hname.no_slash, ?_⟩
    rw [Text.joinWith_append hd (List.cons_ne_nil c []), hlast, List.append_assoc]
    rfl

theorem IsInner.ne_nil (h : IsInner p) : p ≠ [] := by
  rintro rfl
  have hnormal : normalize [] = [] := h.normal
  exact absurd hnormal (by decide)

theorem IsInner.getLast?_ne (h : IsInner p) : p.getLast? ≠ some slash := by
  obtain ⟨cs, hne, hnames, rfl⟩ := isInner_iff.1 h
  exact (joinWith_names hne hnames).2

theorem IsBase.ne_nil (h : IsBase root) : root ≠ [] := by
  rintro rfl
  exact absurd h.absolute nofun

theorem IsBase.getLast?_ne (h : IsBase root) : root.getLast? ≠ some slash := by
  obtain ⟨n, bs, _, _, hb, hbs, rfl⟩ := h.exists_names
  have hinner := isInner_iff.2 ⟨bs, hb, hbs, rfl⟩
  rw [render_names hb hbs, List.getLast?_append_of_ne_nil _ hinner.ne_nil]
  exact hinner.getLast?_ne

theorem under_under (root d p : Text) : under (under root d) p = under root (under d p) := by
  simp only [under_apply, List.append_assoc, List.cons_append]

theorem getLast?_under (hp : p ≠ []) : (under root p).getLast? = p.getLast? := by
  rw [under_apply, List.append_cons, List.getLast?_append_of_ne_nil _ hp]

theorem directory_of_no_slash (h : slash ∉ p) : directory p = [] := by
  have hdrop : p.reverse.dropWhile (· ≠ slash) = [] := by
    rw [List.dropWhile_eq_nil_iff]
    intro c hc
    simp only [decide_eq_true_eq]
    rintro rfl
    exact h (List.mem_reverse.1 hc)
  unfold directory
  rw [hdrop]
  rfl

theorem directory_under {d name : Text} (hname : slash ∉ name) (hd : d ≠ [])
    (hlast : d.getLast? ≠ some slash) : directory (under d name) = d := by
  obtain ⟨t, c, rfl⟩ := (List.eq_nil_or_concat' d).resolve_left hd
  have hc : c ≠ slash := by
    rintro rfl
    exact hlast List.getLast?_concat
  have hdrop : (under (t ++ [c]) name).reverse.dropWhile (· ≠ slash)
      = slash :: (t ++ [c]).reverse := by
    rw [under_apply, List.reverse_append, List.reverse_cons, List.append_assoc,
      List.dropWhile_append_of_pos, List.singleton_append, List.dropWhile_cons_of_neg (by simp)]
    intro x hx
    simp only [decide_eq_true_eq]
    rintro rfl
    exact hname (List.mem_reverse.1 hx)
  unfold directory Text.dropEndWhile
  rw [hdrop]
  simp [hc]

/-- A relative path seen from a directory that is not a root. -/
theorem join_eq_under {d t : Text} (hd : d ≠ []) (hlast : d.getLast? ≠ some slash)
    (ht : t.head? ≠ some slash) : join d t = under d t := by
  unfold join
  rw [if_neg ht, if_neg (not_or.2 ⟨hd, hlast⟩)]
  rfl

theorem join_nil {t : Text} : join [] t = t := by
  unfold join
  rw [if_pos (Or.inl rfl), List.nil_append, ite_self]

/-- A relative path, seen from the directory of an inner path, is relative. -/
theorem relative_join_directory (hp : IsInner p) {t : Text} (ht : t.head? ≠ some slash) :
    (join (directory p) t).head? ≠ some slash := by
  rcases hp.cases with hname | ⟨d, name, hd, hname, rfl⟩
  · rw [directory_of_no_slash hname, join_nil]
    exact ht
  · rw [directory_under hname hd.ne_nil hd.getLast?_ne, join_eq_under hd.ne_nil hd.getLast?_ne ht,
      under_apply, List.head?_append_of_ne_nil _ hd.ne_nil]
    exact hd.relative

/-- It is seen in the same place below another directory. -/
theorem join_directory_under (h : IsBase root) (hp : IsInner p) {t : Text}
    (ht : t.head? ≠ some slash) :
    join (directory (under root p)) t = under root (join (directory p) t) := by
  rcases hp.cases with hname | ⟨d, name, hd, hname, rfl⟩
  · rw [directory_of_no_slash hname, join_nil, directory_under hname h.ne_nil h.getLast?_ne,
      join_eq_under h.ne_nil h.getLast?_ne ht]
  · have hlast : (under root d).getLast? ≠ some slash := by
      rw [getLast?_under hd.ne_nil]
      exact hd.getLast?_ne
    have hne : under root d ≠ [] := List.append_ne_nil_of_right_ne_nil _ (List.cons_ne_nil _ _)
    rw [← under_under, directory_under hname hne hlast, join_eq_under hne hlast ht,
      directory_under hname hd.ne_nil hd.getLast?_ne, join_eq_under hd.ne_nil hd.getLast?_ne ht,
      under_under]

/-! ## Extensions -/

theorem lastComponent_under (root p : Text) : lastComponent (under root p) = lastComponent p := by
  unfold lastComponent
  rw [under_apply, List.reverse_append, List.reverse_cons, List.append_assoc,
    List.takeWhile_append, List.singleton_append, List.takeWhile_cons_of_neg (by simp),
    List.append_nil]
  split
  · rename_i hlen
    rw [(List.takeWhile_prefix _).eq_of_length hlen]
  · rfl

theorem extension_under (root p : Text) : extension (under root p) = extension p := by
  unfold extension
  rw [lastComponent_under]

theorem IsInner.append_suffix {e : Text} (h : IsInner p) (hlen : 2 < e.length)
    (he : slash ∉ e) : IsInner (p ++ e) := by
  obtain ⟨cs, hne, hnames, rfl⟩ := isInner_iff.1 h
  obtain ⟨ds, c, rfl⟩ := (List.eq_nil_or_concat' cs).resolve_left hne
  obtain ⟨hds, hc⟩ := List.forall_mem_append.1 hnames
  refine isInner_iff.2 ⟨ds ++ [c ++ e], by simp, List.forall_mem_append.2 ⟨hds, ?_⟩,
    Text.joinWith_concat_append _ _ _ _⟩
  have hslash := (hc c (List.mem_singleton_self c)).no_slash
  refine List.forall_mem_singleton.2 (isName_of_length ?_ (by simp [hslash, he]))
  rw [List.length_append]
  omega

end Path

/-- The grammar of a file is the same below a directory. -/
theorem Variant.ofPath?_under (root path : Text) :
    ofPath? (Path.under root path) = ofPath? path := by
  unfold ofPath?
  rw [Path.extension_under]

end ImportClosure
