import ImportClosure.Proofs.BreadthFirst
import ImportClosure.Proofs.Candidate
import ImportClosure.Resolution.Walk
/-!
The import graph.

Vertices are files with their texts, and `Imports` is the edge relation: a file whose text is
accepted imports the files that its local specifiers lead to. What can be wrong with a file is a
relation on files as well: the text is refused (`Rejects`), a package is not provided (`Lacks`),
a specifier leads nowhere (`Misses`). Nothing in this module knows of a queue or of findings, so
these relations are what a run is measured against.
-/

namespace ImportClosure

/-- Every text can be handed to the extractor of every grammar. -/
def Settings.Total (s : Settings) : Prop := ∀ content v, ∃ x, s.extract content v = .ok x

namespace Resolution

/-! ## Edges -/

/-- The file is written in the grammar `v`, and its text is accepted with these specifiers. -/
def Parses (s : Settings) (f : SourceFile) (v : Variant) (m : Specifiers) : Prop :=
  f.variant = some v ∧ s.extract f.content v = .ok ⟨m, none⟩

/-- A local specifier of `f` leads to `g`. -/
def Imports (s : Settings) (r : Reader) (f g : SourceFile) : Prop :=
  ∃ v m, Parses s f v m ∧ ∃ t ∈ m.files,
    Candidate.find? r v (Candidate.ofSpecifier (Path.directory f.path) t) = some g

/-- A chain of imports leads from one file to another. -/
def Reachable (s : Settings) (r : Reader) : SourceFile → SourceFile → Prop :=
  Relation.ReflTransGen (Imports s r)

/-- The files that the local specifiers of a file lead to, in ascending order of the
specifiers. -/
def importedFiles (s : Settings) (r : Reader) (f : SourceFile) : List SourceFile :=
  match f.variant with
  | none => []
  | some v =>
    match s.extract f.content v with
    | .ok ⟨m, none⟩ => m.files.toList.filterMap fun t =>
        Candidate.find? r v (Candidate.ofSpecifier (Path.directory f.path) t)
    | _ => []

/-- The file from which a run starts: the one at the normal form of the entrypoint, written in
one of the grammars. -/
def IsEntry (r : Reader) (entrypoint : Text) (e : SourceFile) : Prop :=
  Candidate.readable? r (Path.normalize entrypoint) = some e ∧ e.variant ≠ none

/-! ## What can be wrong with a file -/

/-- The file is not accepted, for this reason. -/
def Rejects (s : Settings) (f : SourceFile) (reason : Text) : Prop :=
  (f.variant = none ∧ reason = ResolutionError.unsupportedExtension f.path)
    ∨ ∃ v m, f.variant = some v ∧ s.extract f.content v = .ok ⟨m, some reason⟩

/-- The file is accepted and uses a package that is not provided. -/
def Lacks (s : Settings) (f : SourceFile) (name : Text) : Prop :=
  ∃ v m, Parses s f v m ∧ name ∈ m.packages ∧ name ∉ s.allowed

/-- The file is accepted, and a local specifier of it has this candidate, of which no attempted
path can be read. -/
def Misses (s : Settings) (r : Reader) (f : SourceFile) (candidate : Text) : Prop :=
  ∃ v m, Parses s f v m
    ∧ (∃ t ∈ m.files, Candidate.ofSpecifier (Path.directory f.path) t = candidate)
    ∧ ∀ q ∈ Candidate.attempts v candidate, ∀ content, r.read q ≠ .ok content

/-- The file is accepted, all its packages are provided, and each of its local specifiers leads
to a file that can be read. -/
def Sound (s : Settings) (r : Reader) (f : SourceFile) : Prop :=
  ∃ v m, Parses s f v m ∧ (∀ name ∈ m.packages, name ∈ s.allowed)
    ∧ ∀ t ∈ m.files, ∃ q ∈ Candidate.attempts v
        (Candidate.ofSpecifier (Path.directory f.path) t), ∃ content, r.read q = .ok content

variable {s : Settings} {r : Reader} {e f g : SourceFile} {v : Variant} {m : Specifiers}

theorem importedFiles_of_parses (h : Parses s f v m) :
    importedFiles s r f = m.files.toList.filterMap fun t =>
      Candidate.find? r v (Candidate.ofSpecifier (Path.directory f.path) t) := by
  unfold importedFiles
  rw [h.1]
  dsimp only
  rw [h.2]

theorem importedFiles_of_not_parses (h : ∀ v m, ¬ Parses s f v m) : importedFiles s r f = [] := by
  unfold importedFiles
  split
  · rfl
  · rename_i v hv
    split
    · rename_i m hx
      exact absurd ⟨hv, hx⟩ (h v m)
    · rfl

/-- A file is accepted in one way. -/
theorem Parses.eq {v' : Variant} {m' : Specifiers} (h : Parses s f v m)
    (h' : Parses s f v' m') : v = v' ∧ m = m' := by
  have hv : v = v' := Option.some.inj (h.1.symm.trans h'.1)
  subst hv
  have hx := Except.ok.inj (h.2.symm.trans h'.2)
  exact ⟨rfl, congrArg Extraction.specifiers hx⟩

/-- What is said of the specifiers of an accepted file is said of one list of them. -/
theorem Parses.exists_iff {p : Variant → Specifiers → Prop} (h : Parses s f v m) :
    (∃ v' m', Parses s f v' m' ∧ p v' m') ↔ p v m := by
  constructor
  · rintro ⟨v', m', h', hp⟩
    obtain ⟨rfl, rfl⟩ := h.eq h'
    exact hp
  · exact fun hp => ⟨v, m, h, hp⟩

theorem Parses.imports_iff (h : Parses s f v m) :
    Imports s r f g ↔ ∃ t ∈ m.files, Candidate.find? r v
      (Candidate.ofSpecifier (Path.directory f.path) t) = some g :=
  h.exists_iff

theorem Parses.lacks_iff {name : Text} (h : Parses s f v m) :
    Lacks s f name ↔ name ∈ m.packages ∧ name ∉ s.allowed :=
  h.exists_iff

theorem Parses.misses_iff {c : Text} (h : Parses s f v m) :
    Misses s r f c ↔ (∃ t ∈ m.files, Candidate.ofSpecifier (Path.directory f.path) t = c)
      ∧ ∀ q ∈ Candidate.attempts v c, ∀ content, r.read q ≠ .ok content :=
  h.exists_iff

theorem Parses.sound_iff (h : Parses s f v m) :
    Sound s r f ↔ (∀ name ∈ m.packages, name ∈ s.allowed)
      ∧ ∀ t ∈ m.files, ∃ q ∈ Candidate.attempts v
        (Candidate.ofSpecifier (Path.directory f.path) t), ∃ content, r.read q = .ok content :=
  h.exists_iff

/-- The list of imported files lists the files imported. -/
theorem mem_importedFiles : g ∈ importedFiles s r f ↔ Imports s r f g := by
  by_cases h : ∃ v m, Parses s f v m
  · obtain ⟨v, m, hp⟩ := h
    rw [importedFiles_of_parses hp, List.mem_filterMap]
    exact hp.imports_iff.symm
  · rw [importedFiles_of_not_parses (fun v m hp => h ⟨v, m, hp⟩)]
    constructor
    · exact fun hg => absurd hg List.not_mem_nil
    · rintro ⟨v, m, hp, _⟩
      exact absurd ⟨v, m, hp⟩ h

theorem reachable_eq :
    Reachable s r = Relation.ReflTransGen (fun f g => g ∈ importedFiles s r f) := by
  unfold Reachable
  congr 1
  funext f g
  exact propext mem_importedFiles.symm

/-- Files that import only each other are all that can be reached from one of them. -/
theorem Reachable.mem_of_closed {files : List SourceFile} (h : Reachable s r e f) (he : e ∈ files)
    (hfiles : ∀ g ∈ files, ∀ g' ∈ importedFiles s r g, g' ∈ files) : f ∈ files := by
  induction h with
  | refl => exact he
  | tail _ hg ih => exact hfiles _ ih _ (mem_importedFiles.2 hg)

/-! ## Reachable files are files of the storage, at normal paths -/

theorem Imports.stored (h : Imports s r f g) : Candidate.Stored r g := by
  obtain ⟨v, m, _, t, _, hg⟩ := h
  exact Candidate.stored_of_find? hg

theorem Imports.isNormal (h : Imports s r f g) : Path.IsNormal g.path := by
  obtain ⟨v, m, _, t, _, hg⟩ := h
  exact Candidate.isNormal_of_find? (Candidate.isNormal_ofSpecifier _ _) hg

theorem Reachable.stored (he : Candidate.Stored r e) (h : Reachable s r e f) :
    Candidate.Stored r f := by
  induction h with
  | refl => exact he
  | tail _ hg _ => exact hg.stored

theorem Reachable.isNormal (he : Path.IsNormal e.path) (h : Reachable s r e f) :
    Path.IsNormal f.path := by
  induction h with
  | refl => exact he
  | tail _ hg _ => exact hg.isNormal

variable {entrypoint : Text}

theorem IsEntry.path_eq (h : IsEntry r entrypoint e) : e.path = Path.normalize entrypoint :=
  (Candidate.readable?_eq_some_iff.1 h.1).2.1

theorem IsEntry.stored (h : IsEntry r entrypoint e) : Candidate.Stored r e :=
  Candidate.stored_of_readable? h.1

theorem IsEntry.isNormal (h : IsEntry r entrypoint e) : Path.IsNormal e.path := by
  rw [h.path_eq]
  exact Path.isNormal_normalize entrypoint

/-- From an entry file the walk starts. -/
theorem IsEntry.resolve_eq (h : IsEntry r entrypoint e) :
    resolve s r entrypoint = run s r r.paths.length (start e) := by
  obtain ⟨hread, hpath, hvariant⟩ := Candidate.readable?_eq_some_iff.1 h.1
  obtain ⟨v, hv⟩ := Option.ne_none_iff_exists'.1 h.2
  have he : e = ⟨Path.normalize entrypoint, e.content, some v⟩ := by
    rw [← hpath, ← hv]
  rw [hv] at hvariant
  unfold resolve
  rw [he]
  simp only [← hvariant, hread]

/-- There is an entry file, or the run ends at once: the extension of the entrypoint tells no
grammar, or there is no text at its path. -/
theorem isEntry_or_refused (s : Settings) (r : Reader) (entrypoint : Text) :
    (∃ e, IsEntry r entrypoint e)
      ∨ (Variant.ofPath? (Path.normalize entrypoint) = none
        ∧ resolve s r entrypoint
          = ⟨.error (.reported (.unsupportedEntrypoint entrypoint)), []⟩)
      ∨ ∃ v why, Variant.ofPath? (Path.normalize entrypoint) = some v
        ∧ r.read (Path.normalize entrypoint) = .error why
        ∧ resolve s r entrypoint
          = ⟨.error (.reported (.unreadableEntrypoint entrypoint (some why.message))),
            [.asked (Path.normalize entrypoint),
              .entryUnreadable (Path.normalize entrypoint) why]⟩ := by
  unfold resolve
  dsimp only
  cases hv : Variant.ofPath? (Path.normalize entrypoint) with
  | none => exact Or.inr (Or.inl ⟨rfl, rfl⟩)
  | some v =>
    cases hread : r.read (Path.normalize entrypoint) with
    | error why => exact Or.inr (Or.inr ⟨v, why, rfl, rfl, rfl⟩)
    | ok content =>
      refine Or.inl ⟨⟨Path.normalize entrypoint, content, some v⟩, ?_, nofun⟩
      exact Candidate.readable?_eq_some_iff.2 ⟨hread, rfl, hv.symm⟩

end Resolution

end ImportClosure
