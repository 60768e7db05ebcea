import ImportClosure.Proofs.Candidate
import ImportClosure.Proofs.Decoding
import ImportClosure.Proofs.InnerPath
import ImportClosure.Proofs.OrderedMap
import ImportClosure.Storage.Disk
/-!
Normal paths on a disk.

A normal path is read component by component as it is spelled: dots that climb come first, each to
the directory above, and names follow, each below the one before. So a path that can be read leads
to the place that its components say (`follow_climb`, `eq_append_of_follow`), and every name on the
way has to be a directory, which is all that is needed (`follow_names`). A path has a length that
it may not exceed, and this is why the spellings of a place can be listed, though above the root is
the root: the disk is a finite storage (`isFinite_reader`). What is read has bytes, under both
encodings.
-/

namespace ImportClosure

namespace Path

variable {n : Nat} {cs : List Text} {p : Text}

theorem ofString_dots : Text.ofString ".." = [dot, dot] := rfl

/-- A normal path is spelled by components in normal form. -/
theorem IsNormal.exists_stack (h : IsNormal p) :
    ∃ cs, Stack (decide (0 < rootSlashes p)) cs.reverse ∧ p = render (rootSlashes p) cs :=
  ⟨_, stack_collapse _ p, h.symm⟩

/-- Without a root, components in normal form are dots that climb and then names. -/
theorem Stack.exists_climb {done : List Text} (h : Stack false done) :
    ∃ k names, done.reverse = List.replicate k [dot, dot] ++ names ∧ ∀ c ∈ names, IsName c := by
  induction h with
  | nil => exact ⟨0, [], rfl, List.forall_mem_nil _⟩
  | @name c done hc _ ih =>
    obtain ⟨k, names, heq, hnames⟩ := ih
    refine ⟨k, names ++ [c], ?_, List.forall_mem_append.2 ⟨hnames, List.forall_mem_singleton.2 hc⟩⟩
    rw [List.reverse_cons, heq, List.append_assoc]
  | @climb done _ hd _ _ =>
    -- below dots that climb there is nothing else
    refine ⟨done.length + 1, [], ?_, List.forall_mem_nil _⟩
    rw [List.append_nil, List.reverse_eq_iff, List.reverse_replicate]
    exact List.eq_replicate_iff.2 ⟨rfl, List.forall_mem_cons.2 ⟨rfl, hd⟩⟩

/-- A path that climbs is the path above, seen from one directory further below. -/
theorem render_climb (hne : cs ≠ []) (h : ∀ c ∈ cs, c ≠ []) :
    render 0 ([dot, dot] :: cs) = dot :: dot :: slash :: render 0 cs := by
  rw [render_of_ne_nil hne h, render_of_ne_nil (List.cons_ne_nil _ _)
    (List.forall_mem_cons.2 ⟨by decide, h⟩)]
  unfold Text.joinWith
  rw [List.intercalate_cons_of_ne_nil hne]
  rfl

/-- Each climb takes three code points, but for the slash after the last. -/
theorem three_mul_le_length_render (k : Nat) (h : ∀ c ∈ cs, c ≠ []) :
    3 * k ≤ (render 0 (List.replicate k [dot, dot] ++ cs)).length + 1 := by
  induction k with
  | zero => omega
  | succ k ih =>
    rw [List.replicate_succ, List.cons_append]
    by_cases hne : List.replicate k [dot, dot] ++ cs = []
    · rw [hne]
      obtain ⟨hk, -⟩ := List.append_eq_nil_iff.1 hne
      obtain rfl : k = 0 := (List.replicate_eq_nil_iff _).1 hk
      decide
    · rw [render_climb hne]
      · simp only [List.length_cons]
        omega
      · refine List.forall_mem_append.2 ⟨?_, h⟩
        intro c hc
        rw [List.eq_of_mem_replicate hc]
        exact List.cons_ne_nil _ _

end Path

namespace Disk

open ImportClosure.Path (IsName IsNormal Stack render slash dot)

variable {d : Disk} {place place' names : List Text} {n : Nat} {cs : List Text} {e : DiskEntry}
variable {path t : Text} {limit : Option Int} {content : Bytes}

/-! ## Components -/

theorem clean_eq_render (path : Text) :
    Path.clean path = render (Path.rootSlashes path) (components path) := rfl

/-- Components in normal form are read back as they were written. -/
theorem components_render {rooted : Bool} (hn : n ≤ 2) (h : Stack rooted cs.reverse) :
    components (render n cs) = cs := by
  by_cases hcs : cs = []
  · subst hcs
    have hn : n = 0 ∨ n = 1 ∨ n = 2 := by omega
    rcases hn with rfl | rfl | rfl <;> decide
  · have hne : ∀ c ∈ cs, c ≠ [] := fun c hc => h.ne_nil c (List.mem_reverse.2 hc)
    have hdot : ∀ c ∈ cs, c ≠ [dot] := fun c hc => h.ne_dot c (List.mem_reverse.2 hc)
    unfold components
    rw [Path.splitOn_render hcs hne fun c hc => h.no_slash c (List.mem_reverse.2 hc),
      List.filter_append, List.filter_replicate_of_neg (by simp), List.nil_append,
      List.filter_eq_self]
    intro c hc
    simp [hne c hc, hdot c hc]

/-- A normal path is looked up as it is spelled. -/
theorem clean_of_isNormal (h : Path.IsNormal path) : Path.clean path = path := by
  obtain ⟨cs, hstack, hpath⟩ := h.exists_stack
  have hcs : components path = cs := by
    rw [hpath]
    exact components_render (Path.rootSlashes_le_two path) hstack
  rw [clean_eq_render, hcs, ← hpath]

/-! ## Following components -/

theorem follow_cons_dots :
    d.follow place ([dot, dot] :: names) = d.follow place.dropLast names := by
  conv_lhs => unfold follow
  rw [if_pos Path.ofString_dots.symm]

/-- Dots that climb lead to the directories above, of which the root is the last. -/
theorem follow_climb (d : Disk) (place : List Text) (k : Nat) (names : List Text) :
    d.follow place (List.replicate k [dot, dot] ++ names)
      = d.follow (place.take (place.length - k)) names := by
  induction k generalizing place with
  | zero =>
    rw [List.replicate_zero, List.nil_append, Nat.sub_zero, List.take_length]
  | succ k ih =>
    rw [List.replicate_succ, List.cons_append, follow_cons_dots, ih, List.dropLast_eq_take,
      List.length_take, List.take_take]
    congr 2
    omega

/-- A name leads below the place. -/
theorem follow_cons_name {c : Text} (hc : c ≠ [dot, dot]) :
    d.follow place (c :: names) =
      if longest.2 < (Utf8.encodeAll c).length then .error .nameTooLong
      else
        match d.entries.get? (place ++ [c]), names with
        | _, [] => .ok (place ++ [c])
        | some .directory, names => d.follow (place ++ [c]) names
        | some (.file _), _ => .error .notADirectory
        | none, _ => .error .absent := by
  conv_lhs => unfold follow
  exact if_neg fun h => hc (h.trans Path.ofString_dots)

/-- Names that lead anywhere lead to the place that they say. -/
theorem eq_append_of_follow (hnames : ∀ c ∈ names, c ≠ [dot, dot])
    (h : d.follow place names = .ok place') : place' = place ++ names := by
  induction names generalizing place with
  | nil =>
    unfold follow at h
    rw [← Except.ok.inj h, List.append_nil]
  | cons c names ih =>
    obtain ⟨hc, hnames⟩ := List.forall_mem_cons.1 hnames
    rw [follow_cons_name hc] at h
    split at h
    · cases h
    · split at h
      · exact (Except.ok.inj h).symm
      · rw [ih hnames h, List.append_assoc]
        rfl
      · cases h
      · cases h

/-- They lead there if none is too long and all but the last are directories. -/
theorem follow_names
    (hnames : ∀ c ∈ names, c ≠ [dot, dot] ∧ (Utf8.encodeAll c).length ≤ longest.2)
    (hdirectories : ∀ n, 0 < n → n < names.length →
      d.entries.get? (place ++ names.take n) = some .directory) :
    d.follow place names = .ok (place ++ names) := by
  induction names generalizing place with
  | nil =>
    unfold follow
    rw [List.append_nil]
  | cons c names ih =>
    obtain ⟨⟨hc, hlen⟩, hnames⟩ := List.forall_mem_cons.1 hnames
    rw [follow_cons_name hc, if_neg (Nat.not_lt.2 hlen)]
    cases names with
    | nil => rfl
    | cons c' names =>
      have hfirst : d.entries.get? (place ++ [c]) = some .directory :=
        hdirectories 1 Nat.one_pos (by simp)
      rw [hfirst]
      dsimp only
      rw [ih hnames, List.append_assoc]
      · rfl
      · intro n _ hlt
        have hbelow := hdirectories (n + 1) (Nat.succ_pos n) (by simpa using hlt)
        rwa [List.take_succ_cons, List.append_cons] at hbelow

/-! ## Reading -/

/-- The text of a source with these bytes. -/
def sourceText (content : Bytes) : Text :=
  match Utf8.decode content with
  | .ok t => t
  | .error _ => Latin1.decode content

/-- A source with these bytes is not too large. -/
def Fits (limit : Option Int) (content : Bytes) : Prop := ∀ n ∈ limit, (content.length : Int) ≤ n

instance (limit : Option Int) (content : Bytes) : Decidable (Fits limit content) :=
  decidable_of_iff (limit.all fun n => decide ((content.length : Int) ≤ n)) (by
    cases limit <;> simp [Fits])

theorem sourceText_isEncodable (content : Bytes) : (sourceText content).IsEncodable := by
  unfold sourceText
  split
  · rename_i t h
    exact Utf8.decode_isEncodable h
  · exact Latin1.decode_isEncodable content

/-- What a path is found to be is what stands at its place. -/
theorem find_eq_ok_iff :
    d.find path = .ok e ↔ isNamable path = true ∧ (Utf8.encodeAll path).length ≤ longest.1
      ∧ ∃ place, d.follow (if path.head? = some slash then [] else d.working) (components path)
          = .ok place ∧ d.entries.get? place = some e := by
  unfold find locate
  cases hnamable : isNamable path with
  | false => simp
  | true =>
    by_cases hlen : longest.1 < (Utf8.encodeAll path).length
    · simp [hlen, Nat.not_le.2 hlen]
    · simp only [Bool.not_true, Bool.false_eq_true, if_false, if_neg hlen, true_and,
        Nat.not_lt.1 hlen]
      cases d.follow (if path.head? = some slash then [] else d.working) (components path) with
      | error fault => simp
      | ok place =>
        cases hget : d.entries.get? place with
        | none => simp [hget]
        | some e' => simp [hget]

theorem reader_read_eq_ok_iff :
    (d.reader limit).read path = .ok t ↔
      ∃ content, d.find (Path.clean path) = .ok (.file content) ∧ Fits limit content
        ∧ sourceText content = t := by
  unfold reader readSource
  dsimp only
  cases hfind : d.find (Path.clean path) with
  | error fault => cases fault <;> simp
  | ok e =>
    cases e with
    | directory => simp
    | file content =>
      have hfits : limit.filter (fun n => decide (n < (content.length : Int))) = none
          ↔ Fits limit content := by
        rw [Option.filter_eq_none_iff]
        simp [Fits]
      dsimp only
      cases hlimit : limit.filter (fun n => decide (n < (content.length : Int))) with
      | some n =>
        rw [hlimit] at hfits
        simp [← hfits]
      | none =>
        rw [hlimit] at hfits
        have hfile : (∃ content', (.ok (.file content) : Except DiskFault DiskEntry)
            = .ok (.file content') ∧ Fits limit content' ∧ sourceText content' = t)
            ↔ sourceText content = t := by simp [← hfits]
        rw [hfile]
        unfold sourceText
        cases Utf8.decode content <;> simp

/-- What is read has bytes. -/
theorem isEncodable_of_read (h : (d.reader limit).read path = .ok t) : t.IsEncodable := by
  obtain ⟨content, -, -, rfl⟩ := reader_read_eq_ok_iff.1 h
  exact sourceText_isEncodable content

/-! ## The spellings of a place -/

theorem mem_climbing (hne : cs ≠ []) (h : ∀ c ∈ cs, c ≠ []) {k m : Nat} (hk : k < m) :
    render 0 (List.replicate k [dot, dot] ++ cs) ∈ climbing (render 0 cs) m := by
  induction m generalizing k cs with
  | zero => omega
  | succ m ih =>
    cases k with
    | zero => exact List.mem_cons_self
    | succ k =>
      -- one climb is the first step of the list, and the others are on the list from there on
      have hstep : render 0 (List.replicate k [dot, dot] ++ [dot, dot] :: cs)
          ∈ climbing (render 0 ([dot, dot] :: cs)) m :=
        ih (List.cons_ne_nil _ _) (List.forall_mem_cons.2 ⟨by decide, h⟩)
          (Nat.lt_of_succ_lt_succ hk)
      rw [Path.render_climb hne h] at hstep
      rw [List.replicate_succ', List.append_assoc]
      exact List.mem_cons_of_mem _ hstep

/-- A path from the working directory that is not too long is a spelling of the place that it leads
to. -/
theorem mem_spellings_of_climb {k : Nat} (hnames : ∀ c ∈ names, c ≠ [])
    (hlen : (render 0 (List.replicate k [dot, dot] ++ names)).length ≤ longest.1) :
    render 0 (List.replicate k [dot, dot] ++ names)
      ∈ d.spellings (d.working.take (d.working.length - k) ++ names) := by
  unfold spellings
  by_cases hk : k ≤ d.working.length
  · refine List.mem_append_left _ (List.mem_append_right _ (List.mem_map.2 ⟨k, ?_, ?_⟩))
    · rw [List.mem_filter, List.mem_range]
      exact ⟨by omega, by simp⟩
    · rw [List.drop_append_of_le_length (by simp), List.drop_eq_nil_of_le (by simp)]
      rfl
  · have hbound := Path.three_mul_le_length_render k hnames
    have hbelow : d.working.length - k = 0 := by omega
    have hover : ∀ c ∈ List.replicate (d.working.length + 1) [dot, dot] ++ names, c ≠ [] := by
      refine List.forall_mem_append.2 ⟨?_, hnames⟩
      intro c hc
      rw [List.eq_of_mem_replicate hc]
      exact List.cons_ne_nil _ _
    have hlt : k - (d.working.length + 1) < longest.1 / 3 := by
      unfold longest at hlen ⊢
      dsimp only at hlen ⊢
      omega
    have hmem := mem_climbing (by simp) hover hlt
    rw [← List.append_assoc, List.replicate_append_replicate, Nat.sub_add_cancel (by omega)]
      at hmem
    rw [hbelow, List.take_zero, List.nil_append]
    exact List.mem_append_right _ hmem

/-- **A finite storage.** Every normal path that can be read is on the list of the disk. -/
theorem isFinite_reader (d : Disk) (limit : Option Int) : (d.reader limit).IsFinite := by
  intro path t hnormal hread
  obtain ⟨content, hfind, -, -⟩ := reader_read_eq_ok_iff.1 hread
  obtain ⟨cs, hstack, hpath⟩ := hnormal.exists_stack
  have hn := Path.rootSlashes_le_two path
  have hcs : components path = cs := by
    rw [hpath]
    exact components_render hn hstack
  rw [clean_of_isNormal hnormal] at hfind
  obtain ⟨-, hlen, place, hfollow, hget⟩ := find_eq_ok_iff.1 hfind
  have hspelling : path ∈ d.spellings place := by
    by_cases habs : path.head? = some slash
    · have hpos := Path.rootSlashes_pos_of_absolute habs
      rw [decide_eq_true hpos] at hstack
      have hnames : ∀ c ∈ cs, IsName c := fun c hc =>
        hstack.isName (Or.inl rfl) c (List.mem_reverse.2 hc)
      rw [if_pos habs, hcs] at hfollow
      have hplace := eq_append_of_follow (fun c hc => (hnames c hc).ne_dots) hfollow
      rw [List.nil_append] at hplace
      rw [hpath, hplace]
      unfold spellings
      have hroot : Path.rootSlashes path = 1 ∨ Path.rootSlashes path = 2 := by omega
      rcases hroot with hroot | hroot <;> rw [hroot] <;> simp
    · have hzero := Path.rootSlashes_of_relative habs
      rw [hzero] at hstack hpath
      obtain ⟨k, names, hclimb, hnames⟩ := hstack.exists_climb
      rw [List.reverse_reverse] at hclimb
      rw [if_neg habs, hcs, hclimb, follow_climb] at hfollow
      rw [eq_append_of_follow (fun c hc => (hnames c hc).ne_dots) hfollow, hpath, hclimb]
      refine mem_spellings_of_climb (fun c hc => (hnames c hc).ne_nil) ?_
      rw [← hclimb, ← hpath]
      exact (Utf8.length_le_encodeAll path).trans hlen
  exact List.mem_flatMap.2 ⟨_, OrderedMap.get?_eq_some_iff.1 hget, hspelling⟩

end Disk

end ImportClosure
