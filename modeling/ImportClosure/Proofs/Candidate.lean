import ImportClosure.Proofs.Path
import ImportClosure.Resolution.Candidate
/-!
What a look-up finds, and what it depends on.

A file that a look-up finds is the file of the storage at its path (`Stored`), so a path stands
for at most one file throughout a run. All paths asked for are in normal form, with a guessed
suffix as without. And a look-up depends on the storage only through the paths it asks for: those
before the first readable one, and that one (`asked`).
-/

namespace ImportClosure

/-- Two storages give a path the same text, or none. -/
def Reader.Agree (r r' : Reader) (path : Text) : Prop :=
  ∀ content, r'.read path = .ok content ↔ r.read path = .ok content

/-- Every path in normal form that has a text is on the storage's list. -/
def Reader.IsFinite (r : Reader) : Prop :=
  ∀ path content, Path.IsNormal path → r.read path = .ok content → path ∈ r.paths

namespace Candidate

variable {r r' : Reader} {v : Variant} {c path : Text} {f g : SourceFile}

/-! ## Files of a storage -/

theorem readable?_eq_some_iff :
    readable? r path = some f
      ↔ r.read path = .ok f.content ∧ f.path = path ∧ f.variant = Variant.ofPath? path := by
  unfold readable?
  obtain ⟨p, t, w⟩ := f
  cases r.read path with
  | error why => simp
  | ok content =>
    simp only [Option.some.injEq, SourceFile.mk.injEq, Except.ok.injEq]
    constructor
    · rintro ⟨rfl, rfl, rfl⟩
      exact ⟨rfl, rfl, rfl⟩
    · rintro ⟨rfl, rfl, rfl⟩
      exact ⟨rfl, rfl, rfl⟩

theorem readable?_eq_none_iff :
    readable? r path = none ↔ ∀ content, r.read path ≠ .ok content := by
  unfold readable?
  cases r.read path with
  | error why => simp
  | ok content => simp

theorem readable?_congr (h : r.Agree r' path) : readable? r' path = readable? r path := by
  cases hr : readable? r path with
  | none =>
    rw [readable?_eq_none_iff] at hr ⊢
    exact fun content hc => hr content ((h content).1 hc)
  | some f =>
    rw [readable?_eq_some_iff] at hr ⊢
    exact ⟨(h _).2 hr.1, hr.2⟩

/-- The storage has this file at the file's path. -/
def Stored (r : Reader) (f : SourceFile) : Prop := readable? r f.path = some f

theorem stored_of_readable? (h : readable? r path = some f) : Stored r f := by
  have hp : f.path = path := (readable?_eq_some_iff.1 h).2.1
  unfold Stored
  rw [hp]
  exact h

theorem Stored.read (h : Stored r f) : r.read f.path = .ok f.content :=
  (readable?_eq_some_iff.1 h).1

/-- A path stands for one file. -/
theorem Stored.eq_of_path_eq (hf : Stored r f) (hg : Stored r g) (h : f.path = g.path) :
    f = g := by
  unfold Stored at hf hg
  rw [h, hg] at hf
  exact (Option.some.inj hf).symm

/-! ## Normal forms -/

theorem isNormal_ofSpecifier (directory specifier : Text) :
    Path.IsNormal (ofSpecifier directory specifier) :=
  Path.isNormal_normalize _

/-- What is joined onto the directory of a file is relative. -/
theorem head?_dropWhile_slash (specifier : Text) :
    (specifier.dropWhile (· = Path.slash)).head? ≠ some Path.slash := by
  intro h
  have hnot := List.head?_dropWhile_not (fun c => decide (c = Path.slash)) specifier
  rw [h] at hnot
  simp at hnot

/-- What is asked for is the candidate, or the candidate with a guessed suffix. -/
theorem mem_attempts_cases (h : path ∈ attempts v c) :
    path = c ∨ ∃ e : Text, 2 < e.length ∧ Path.slash ∉ e ∧ path = c ++ e := by
  unfold attempts at h
  split at h
  · obtain ⟨e, he, rfl⟩ := List.mem_map.1 h
    have hsuffix : e = Variant.javascript.suffix ∨ e = Variant.typescript.suffix := by
      cases v with
      | javascript => exact Or.inl (List.mem_singleton.1 he)
      | typescript =>
        rcases List.mem_cons.1 he with he | he
        · exact Or.inr he
        · exact Or.inl (List.mem_singleton.1 he)
    rcases hsuffix with rfl | rfl
    · exact Or.inr ⟨_, by decide, by decide, rfl⟩
    · exact Or.inr ⟨_, by decide, by decide, rfl⟩
  · exact Or.inl (List.mem_singleton.1 h)

/-- Whatever is asked for is in normal form. -/
theorem isNormal_of_mem_attempts (hc : Path.IsNormal c) (h : path ∈ attempts v c) :
    Path.IsNormal path := by
  rcases mem_attempts_cases h with rfl | ⟨e, hlen, he, rfl⟩
  · exact hc
  · exact hc.append_suffix hlen he

/-! ## Look-ups -/

theorem find?_eq_none_iff :
    find? r v c = none ↔ ∀ q ∈ attempts v c, ∀ content, r.read q ≠ .ok content := by
  unfold find?
  rw [List.findSome?_eq_none_iff]
  exact forall₂_congr fun _ _ => readable?_eq_none_iff

theorem exists_of_find?_eq_some (h : find? r v c = some f) :
    ∃ q ∈ attempts v c, readable? r q = some f :=
  List.exists_of_findSome?_eq_some h

theorem stored_of_find? (h : find? r v c = some f) : Stored r f := by
  obtain ⟨q, _, hq⟩ := exists_of_find?_eq_some h
  exact stored_of_readable? hq

theorem isNormal_of_find? (hc : Path.IsNormal c) (h : find? r v c = some f) :
    Path.IsNormal f.path := by
  obtain ⟨q, hmem, hq⟩ := exists_of_find?_eq_some h
  rw [(readable?_eq_some_iff.1 hq).2.1]
  exact isNormal_of_mem_attempts hc hmem

/-- The paths that are asked for when a list of paths is tried in turn. -/
def asked (r : Reader) : List Text → List Text
  | [] => []
  | q :: qs => q :: if (readable? r q).isSome then [] else asked r qs

theorem mem_attempts_of_mem_asked {q : Text} (h : q ∈ asked r (attempts v c)) :
    q ∈ attempts v c := by
  have hqs : ∀ qs, q ∈ asked r qs → q ∈ qs := by
    intro qs
    induction qs with
    | nil => exact fun hq => hq
    | cons p qs ih =>
      intro hq
      unfold asked at hq
      rcases List.mem_cons.1 hq with rfl | hq
      · exact List.mem_cons_self
      · split at hq
        · exact absurd hq List.not_mem_nil
        · exact List.mem_cons_of_mem _ (ih hq)
  exact hqs _ h

/-- What a look-up finds was asked for. -/
theorem path_mem_asked_of_find? (h : find? r v c = some f) : f.path ∈ asked r (attempts v c) := by
  have hqs : ∀ qs, qs.findSome? (readable? r) = some f → f.path ∈ asked r qs := by
    intro qs
    induction qs with
    | nil => exact fun hf => absurd hf nofun
    | cons q qs ih =>
      intro hf
      rw [List.findSome?_cons] at hf
      unfold asked
      cases hq : readable? r q with
      | some g =>
        rw [hq] at hf
        rw [← Option.some.inj hf, (readable?_eq_some_iff.1 hq).2.1]
        exact List.mem_cons_self
      | none =>
        rw [hq] at hf
        exact List.mem_cons_of_mem _ (ih hf)
  exact hqs _ h

/-- A look-up depends on the paths asked for only. -/
theorem find?_congr (h : ∀ q ∈ asked r (attempts v c), r.Agree r' q) :
    find? r' v c = find? r v c := by
  -- stated of any list of paths, on which `asked` recurses
  have hqs : ∀ qs, (∀ q ∈ asked r qs, r.Agree r' q) →
      qs.findSome? (readable? r') = qs.findSome? (readable? r) := by
    intro qs
    induction qs with
    | nil => exact fun _ => rfl
    | cons q qs ih =>
      intro hqs
      rw [List.findSome?_cons, List.findSome?_cons,
        readable?_congr (hqs q List.mem_cons_self)]
      cases hq : readable? r q with
      | some f => rfl
      | none =>
        apply ih
        intro p hp
        apply hqs
        unfold asked
        rw [hq]
        exact List.mem_cons_of_mem _ hp
  exact hqs _ h

/-- What is asked for has no text, or is where the look-up ends. -/
theorem unreadable_or_find?_of_mem_asked {q : Text} (h : q ∈ asked r (attempts v c)) :
    (∀ content, r.read q ≠ .ok content) ∨ ∃ f, find? r v c = some f ∧ f.path = q := by
  have hqs : ∀ qs, q ∈ asked r qs →
      readable? r q = none ∨ ∃ f, qs.findSome? (readable? r) = some f ∧ f.path = q := by
    intro qs
    induction qs with
    | nil => exact fun hq => absurd hq List.not_mem_nil
    | cons p qs ih =>
      intro hq
      unfold asked at hq
      rw [List.findSome?_cons]
      cases hp : readable? r p with
      | some f =>
        rw [hp] at hq
        have hqp : q = p := by simpa using hq
        rw [hqp]
        exact Or.inr ⟨f, rfl, (readable?_eq_some_iff.1 hp).2.1⟩
      | none =>
        rw [hp] at hq
        rcases List.mem_cons.1 hq with rfl | hq
        · exact Or.inl hp
        · exact ih hq
  rw [← readable?_eq_none_iff]
  exact hqs _ h

end Candidate

end ImportClosure
