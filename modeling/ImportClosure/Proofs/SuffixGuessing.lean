import ImportClosure.Proofs.Candidate
import ImportClosure.Storage.Memory
import Mathlib.Data.List.TakeWhile
/-!
Guessed suffixes.

A candidate has an extension if its last component has a dot after something that is no dot
(`Path.HasExtension`). It is then asked for as it is, and otherwise with the suffixes of the
referring grammar in turn. A suffix written after a path becomes its extension, except after a
component that is empty or made of dots, where the dot of the suffix is one more leading dot
(`Path.extension_append`). So a guessed file is told by its path which grammar it is written in, and
asking for that path finds the same file from either grammar (`Candidate.find?_guesses`), that
exception apart, in which the path tells no grammar at all.
-/

namespace ImportClosure

namespace Path

variable {p e stem tail : Text}

/-! ## The last component -/

/-- The last component has a dot after something that is no dot. -/
def HasExtension (p : Text) : Prop :=
  ∃ stem tail : Text, lastComponent p = stem ++ dot :: tail ∧ ∃ c ∈ stem, c ≠ dot

/-- The last component is empty or made of dots. -/
def IsDotted (p : Text) : Prop := ∀ c ∈ lastComponent p, c = dot

instance (p : Text) : Decidable (IsDotted p) :=
  List.decidableBAll (fun c => c = dot) (lastComponent p)

/-- What has no slash and is written after a path is written after its last component. -/
theorem lastComponent_append (he : slash ∉ e) :
    lastComponent (p ++ e) = lastComponent p ++ e := by
  have hpos : ∀ c ∈ e.reverse, decide (c ≠ slash) = true := by
    intro c hc
    rw [decide_eq_true_eq]
    rintro rfl
    exact he (List.mem_reverse.1 hc)
  unfold lastComponent
  rw [List.reverse_append, List.takeWhile_append_of_pos hpos, List.reverse_append,
    List.reverse_reverse]

/-! ## Extensions -/

/-- The extension begins at the last dot, unless nothing but dots stands before it. -/
theorem extension_of_last_dot (hname : lastComponent p = stem ++ dot :: tail) (htail : dot ∉ tail) :
    extension p = if ∀ c ∈ stem, c = dot then [] else dot :: tail := by
  have hpos : ∀ c ∈ tail.reverse, decide (c ≠ dot) = true := by
    intro c hc
    rw [decide_eq_true_eq]
    rintro rfl
    exact htail (List.mem_reverse.1 hc)
  have hstem : ((lastComponent p).reverse.dropWhile (· ≠ dot)).tail.reverse = stem := by
    rw [hname, List.reverse_append, List.reverse_cons, List.append_assoc,
      List.dropWhile_append_of_pos hpos, List.singleton_append,
      List.dropWhile_cons_of_neg (by simp), List.tail_cons, List.reverse_reverse]
  unfold extension
  dsimp only
  rw [hstem, hname, List.drop_left]
  simp only [List.all_eq_true, decide_eq_true_eq]

theorem extension_of_no_dot (h : dot ∉ lastComponent p) : extension p = [] := by
  have hnil : (lastComponent p).reverse.dropWhile (· ≠ dot) = [] := by
    rw [List.dropWhile_eq_nil_iff]
    intro c hc
    rw [decide_eq_true_eq]
    rintro rfl
    exact h (List.mem_reverse.1 hc)
  unfold extension
  dsimp only
  rw [hnil]
  rfl

/-- A name with a dot has a last one. -/
theorem exists_last_dot {name : Text} (h : dot ∈ name) :
    ∃ stem tail : Text, name = stem ++ dot :: tail ∧ dot ∉ tail := by
  obtain ⟨tail, stem, hname, htail⟩ := List.eq_append_cons_of_mem (List.mem_reverse.2 h)
  refine ⟨stem.reverse, tail.reverse, ?_, fun hmem => htail (List.mem_reverse.1 hmem)⟩
  rw [← List.reverse_reverse name, hname, List.reverse_append, List.reverse_cons, List.append_assoc]
  rfl

/-- What stands before a dot stands before the last dot. -/
theorem mem_stem_of_last_dot {before after : Text} {c : CodePoint}
    (h : before ++ dot :: after = stem ++ dot :: tail) (htail : dot ∉ tail) (hc : c ∈ before) :
    c ∈ stem := by
  rcases List.append_eq_append_iff.1 h with ⟨gap, rfl, -⟩ | ⟨gap, rfl, hgap⟩
  · exact List.mem_append_left _ hc
  · -- a dot that is not before the last one would be behind it
    rcases List.cons_eq_append_iff.1 hgap with ⟨rfl, -⟩ | ⟨gap, rfl, rfl⟩
    · rwa [List.append_nil] at hc
    · exact absurd (List.mem_append_right _ List.mem_cons_self) htail

theorem extension_ne_nil_iff : extension p ≠ [] ↔ HasExtension p := by
  constructor
  · intro hext
    have hdot : dot ∈ lastComponent p := by
      by_contra hdot
      exact hext (extension_of_no_dot hdot)
    obtain ⟨stem, tail, hname, htail⟩ := exists_last_dot hdot
    rw [extension_of_last_dot hname htail] at hext
    have hstem : ¬ ∀ c ∈ stem, c = dot := fun hall => hext (if_pos hall)
    push Not at hstem
    exact ⟨stem, tail, hname, hstem⟩
  · rintro ⟨before, after, hname, c, hc, hne⟩
    have hdot : dot ∈ lastComponent p := by
      rw [hname]
      exact List.mem_append_right _ List.mem_cons_self
    obtain ⟨stem, tail, hlast, htail⟩ := exists_last_dot hdot
    have hmem : c ∈ stem := mem_stem_of_last_dot (hname.symm.trans hlast) htail hc
    rw [extension_of_last_dot hlast htail, if_neg fun hall => hne (hall c hmem)]
    exact List.cons_ne_nil _ _

instance (p : Text) : Decidable (HasExtension p) := decidable_of_iff _ extension_ne_nil_iff

/-- **Suffixes.** A dot and what follows it, written after a path, are its extension, unless its
last component is empty or made of dots. -/
theorem extension_append (hslash : slash ∉ tail) (hdot : dot ∉ tail) :
    extension (p ++ dot :: tail) = if IsDotted p then [] else dot :: tail := by
  have hsuffix : slash ∉ dot :: tail := by
    rw [List.mem_cons, not_or]
    exact ⟨by decide, hslash⟩
  have hext := extension_of_last_dot (lastComponent_append (p := p) hsuffix) hdot
  by_cases hdots : IsDotted p
  · rw [if_pos hdots]
    exact hext.trans (if_pos hdots)
  · rw [if_neg hdots]
    exact hext.trans (if_neg hdots)

end Path

open ImportClosure.Path (HasExtension IsDotted)

theorem Variant.exists_suffix_eq (v : Variant) :
    ∃ tail, v.suffix = Path.dot :: tail ∧ Path.slash ∉ tail ∧ Path.dot ∉ tail := by
  cases v with
  | javascript => exact ⟨['j', 's'], rfl, by decide, by decide⟩
  | typescript => exact ⟨['t', 's'], rfl, by decide, by decide⟩

/-- What is guessed is the suffix of some grammar. -/
theorem Variant.exists_eq_suffix {v : Variant} {e : Text} (h : e ∈ v.fallbacks) :
    ∃ w : Variant, e = w.suffix := by
  cases v with
  | javascript => exact ⟨javascript, List.mem_singleton.1 h⟩
  | typescript =>
    rcases List.mem_cons.1 h with rfl | h
    · exact ⟨typescript, rfl⟩
    · exact ⟨javascript, List.mem_singleton.1 h⟩

variable {p : Text}

theorem Path.extension_append_suffix (v : Variant) :
    extension (p ++ v.suffix) = if IsDotted p then [] else v.suffix := by
  obtain ⟨tail, htail, hslash, hdot⟩ := v.exists_suffix_eq
  rw [htail]
  exact extension_append hslash hdot

/-- A suffix tells its grammar, unless it stands after dots. -/
theorem Variant.ofPath?_append_suffix (v : Variant) :
    ofPath? (p ++ v.suffix) = if IsDotted p then none else some v := by
  unfold ofPath?
  rw [Path.extension_append_suffix]
  by_cases hdots : IsDotted p
  · rw [if_pos hdots, if_pos hdots]
    rfl
  · rw [if_neg hdots, if_neg hdots]
    cases v <;> rfl

theorem Path.hasExtension_append_suffix (v : Variant) :
    HasExtension (p ++ v.suffix) ↔ ¬ IsDotted p := by
  rw [← Path.extension_ne_nil_iff, Path.extension_append_suffix]
  by_cases hdots : IsDotted p
  · simp [hdots]
  · have hne : v.suffix ≠ [] := by cases v <;> exact List.cons_ne_nil _ _
    simp [hdots, hne]

namespace Candidate

variable {r : Reader} {v w : Variant} {c : Text} {f : SourceFile}

/-! ## Look-ups -/

/-- Of these paths in turn, the first with a text is this one, and this is its text. -/
def IsFirstReadable (r : Reader) (paths : List Text) (path content : Text) : Prop :=
  ∃ before after, paths = before ++ path :: after
    ∧ (∀ q ∈ before, ∀ t, r.read q ≠ .ok t) ∧ r.read path = .ok content

theorem find?_eq_some_iff :
    find? r v c = some f
      ↔ IsFirstReadable r (attempts v c) f.path f.content ∧ f.variant = Variant.ofPath? f.path := by
  unfold find? IsFirstReadable
  rw [List.findSome?_eq_some_iff]
  simp only [readable?_eq_some_iff, readable?_eq_none_iff]
  constructor
  · rintro ⟨before, path, after, hpaths, ⟨hread, rfl, hvariant⟩, hbefore⟩
    exact ⟨⟨before, after, hpaths, hbefore, hread⟩, hvariant⟩
  · rintro ⟨⟨before, after, hpaths, hbefore, hread⟩, hvariant⟩
    exact ⟨before, f.path, after, hpaths, ⟨hread, rfl, hvariant⟩, hbefore⟩

theorem attempts_of_hasExtension (h : HasExtension c) : attempts v c = [c] :=
  if_neg (Path.extension_ne_nil_iff.2 h)

theorem attempts_of_not_hasExtension (h : ¬ HasExtension c) :
    attempts v c = v.fallbacks.map (c ++ ·) := by
  rw [← Path.extension_ne_nil_iff, not_not] at h
  exact if_pos h

/-- Where a suffix is guessed, the path found has it. -/
theorem exists_suffix_of_find? (h : ¬ HasExtension c) (hf : find? r v c = some f) :
    ∃ w : Variant, f.path = c ++ w.suffix := by
  obtain ⟨⟨before, after, hpaths, -, -⟩, -⟩ := find?_eq_some_iff.1 hf
  have hmem : f.path ∈ attempts v c := by
    rw [hpaths]
    exact List.mem_append_right _ List.mem_cons_self
  rw [attempts_of_not_hasExtension h] at hmem
  obtain ⟨e, he, hpath⟩ := List.mem_map.1 hmem
  obtain ⟨w, rfl⟩ := Variant.exists_eq_suffix he
  exact ⟨w, hpath.symm⟩

/-- From either grammar, a path with an extension leads to what is stored at it. -/
theorem find?_of_hasExtension (h : HasExtension f.path) (hf : Stored r f) (v : Variant) :
    find? r v f.path = some f := by
  have hread : readable? r f.path = some f := hf
  unfold find?
  rw [attempts_of_hasExtension h, List.findSome?_cons, hread]

/-- **Look-ups.** A look-up fails if none of the paths it asks for has a text, and otherwise finds
the first that has one, with its text. It asks for the candidate alone if that has an extension, and
otherwise for the candidate with the suffixes of the referring grammar. A file found by guessing is
written in the grammar of the suffix, and asking for its path finds it again from either grammar,
unless the last component of the candidate is empty or made of dots: then its path tells no
grammar. -/
theorem find?_guesses (r : Reader) (v : Variant) (c : Text) :
    (find? r v c = none ↔ ∀ q ∈ attempts v c, ∀ t, r.read q ≠ .ok t)
      ∧ (∀ f, find? r v c = some f ↔
          IsFirstReadable r (attempts v c) f.path f.content ∧ f.variant = Variant.ofPath? f.path)
      ∧ (HasExtension c → attempts v c = [c])
      ∧ (¬ HasExtension c → attempts .javascript c = [c ++ (".js" : Text)]
          ∧ attempts .typescript c = [c ++ (".ts" : Text), c ++ (".js" : Text)])
      ∧ (¬ HasExtension c → ∀ f, find? r v c = some f → ∃ w : Variant,
          f.path = c ++ w.suffix ∧ f.variant = (if IsDotted c then none else some w)
            ∧ (¬ IsDotted c → ∀ v', find? r v' f.path = some f)) := by
  refine ⟨find?_eq_none_iff, fun f => find?_eq_some_iff, attempts_of_hasExtension, ?_, ?_⟩
  · intro hc
    exact ⟨attempts_of_not_hasExtension hc, attempts_of_not_hasExtension hc⟩
  · intro hc f hf
    obtain ⟨w, hpath⟩ := exists_suffix_of_find? hc hf
    refine ⟨w, hpath, ?_, ?_⟩
    · rw [(find?_eq_some_iff.1 hf).2, hpath, Variant.ofPath?_append_suffix]
    · intro hdots
      have hext : HasExtension f.path := by
        rw [hpath]
        exact (Path.hasExtension_append_suffix w).2 hdots
      exact find?_of_hasExtension hext (stored_of_find? hf)

/-! ## Names that begin with dots -/

/-- The files `.a.js` and `....js`. -/
def dotFiles : MemoryFiles :=
  MemoryFiles.empty.addAll [(".a.js", ['x']), ("....js", ['y'])]

/-- From a typed file, `.a` leads to `.a.js` and `...` to `....js`, which tells no grammar. -/
theorem dotFiles_guessed :
    (¬ HasExtension (".a" : Text) ∧ ¬ IsDotted (".a" : Text)
        ∧ find? dotFiles.reader .typescript ".a" = some ⟨".a.js", ['x'], some .javascript⟩
        ∧ ∀ v, find? dotFiles.reader v ".a.js" = some ⟨".a.js", ['x'], some .javascript⟩)
      ∧ ¬ HasExtension ("..." : Text) ∧ IsDotted ("..." : Text)
        ∧ ∃ w : Variant, ("....js" : Text) = "..." ++ w.suffix
          ∧ find? dotFiles.reader .typescript "..." = some ⟨"....js", ['y'], none⟩ := by
  have hname : ¬ HasExtension (".a" : Text) ∧ ¬ IsDotted (".a" : Text) := by decide
  have hdots : ¬ HasExtension ("..." : Text) ∧ IsDotted ("..." : Text) := by decide
  have hfound : find? dotFiles.reader .typescript ".a"
    = some ⟨".a.js", ['x'], some .javascript⟩ := by decide
  have hfound' : find? dotFiles.reader .typescript "..." = some ⟨"....js", ['y'], none⟩ := by decide
  obtain ⟨_, _, _, _, hguess⟩ := find?_guesses dotFiles.reader .typescript ".a"
  obtain ⟨_, _, _, hagain⟩ := hguess hname.1 _ hfound
  obtain ⟨_, _, _, _, hguess'⟩ := find?_guesses dotFiles.reader .typescript "..."
  obtain ⟨w, hpath, _⟩ := hguess' hdots.1 _ hfound'
  exact ⟨⟨hname.1, hname.2, hfound, hagain hname.2⟩, hdots.1, hdots.2, w, hpath, hfound'⟩

end Candidate

end ImportClosure
