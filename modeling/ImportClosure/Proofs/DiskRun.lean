import ImportClosure.Proofs.DiskLookup
import ImportClosure.Proofs.Extraction
import ImportClosure.Proofs.SelfContained
/-!
Runs over a disk, by a configuration.

What is read from a disk has bytes, whatever the bytes of the file are, so there is no text that a
parser cannot be handed. With the extractors of some parsers a run over a disk therefore always
answers: with the files, or with one of the four errors (`answers_resolveOnDisk`). The paths of the
files were found on the disk, so they have bytes as well, and an answer with files can be written
down (`isEncodable_of_resolveOnDisk`).
-/

namespace ImportClosure

/-! ## Results of any run -/

namespace Resolution

variable {s : Settings} {r : Reader} {entrypoint path content : Text}
variable {files : OrderedMap Text Text}

/-- A result holds what the storage has, at normal paths. -/
theorem stored_of_ok (h : (resolve s r entrypoint).outcome = .ok files)
    (hmem : (path, content) ∈ files.entries) :
    Path.IsNormal path ∧ r.read path = .ok content := by
  obtain ⟨e, he⟩ := exists_isEntry_of_ok h
  obtain ⟨order, hsucceeds, rfl⟩ := exists_succeeds_of_ok he h
  have ho := hsucceeds.breadthFirst
  rw [entries_ofList (nodup_order_paths he ho), mem_entries_iff he ho] at hmem
  obtain ⟨⟨f, hreach, rfl⟩, hread⟩ := hmem
  exact ⟨hreach.isNormal he.isNormal, hread⟩

end Resolution

/-! ## Names on a disk -/

namespace Disk

variable {d : Disk} {path t : Text} {limit : Option Int}

theorem isEncodable_of_isNamable (h : isNamable t = true) : t.IsEncodable := by
  unfold isNamable at h
  intro c hc
  have hname := List.all_eq_true.1 h c hc
  simp only [Bool.and_eq_true, Bool.not_eq_eq_eq_not, Bool.not_true] at hname
  exact hname.2

/-- A normal path that can be read has bytes. -/
theorem isEncodable_path_of_read (hnormal : Path.IsNormal path)
    (h : (d.reader limit).read path = .ok t) : path.IsEncodable := by
  obtain ⟨content, hfind, -, -⟩ := reader_read_eq_ok_iff.1 h
  rw [clean_of_isNormal hnormal] at hfind
  exact isEncodable_of_isNamable (find_eq_ok_iff.1 hfind).1

end Disk

/-! ## Runs by a configuration -/

/-- The extractors that are made from some parsers. -/
def Registry.parserExtractors (parsers : Parsers) : List Extractor :=
  [Variant.javascript, Variant.typescript].map fun v => Extractor.ofParser v (parsers v)

namespace Config

open ImportClosure.Registry (parserExtractors)
open ImportClosure.Resolution (Answers)

/-- What a run over a disk comes to. -/
def resolveOnDisk (c : Config) (extractors : List Extractor) (d : Disk) (entrypoint : Text) :
    Except Failure (OrderedMap Text Text) :=
  (c.resolve extractors (c.diskReader d) entrypoint).1.outcome

variable {c : Config} {parsers : Parsers} {d : Disk} {entrypoint : Text}
variable {files : OrderedMap Text Text}

/-- It is a run by the settings that the configuration spells. -/
theorem resolveOnDisk_eq (c : Config) (parsers : Parsers) (d : Disk) (entrypoint : Text) :
    c.resolveOnDisk (parserExtractors parsers) d entrypoint
      = (ImportClosure.resolve
          (Resolution.grammarSettings parsers.grammars c.allowedModules.toList c.maxFiles)
          (d.reader (some c.maxFileSize)) entrypoint).outcome := rfl

/-- **Answers.** A run over a disk comes to files or to one of four errors. -/
theorem answers_resolveOnDisk (c : Config) (parsers : Parsers) (d : Disk) (entrypoint : Text) :
    Answers (c.settings (parserExtractors parsers)) entrypoint
      (c.resolveOnDisk (parserExtractors parsers) d entrypoint) := by
  have hfinite := d.isFinite_reader (some c.maxFileSize)
  rcases Resolution.answers_or_unencodable
      (Resolution.grammarSettings parsers.grammars c.allowedModules.toList c.maxFiles) hfinite
      entrypoint with
    hanswers | ⟨e, f, why, he, hf, hexamine, -⟩
  · exact hanswers
  · -- the text of a file that was read from the disk can be handed to its parser
    have hcontent := Disk.isEncodable_of_read (hf.stored he.stored).read
    exact absurd hcontent (Resolution.not_isEncodable_of_examine hexamine)

/-- The run answers with files or reports an error; it never breaks off. -/
theorem resolveOnDisk_cases (c : Config) (parsers : Parsers) (d : Disk) (entrypoint : Text) :
    (∃ files, c.resolveOnDisk (parserExtractors parsers) d entrypoint = .ok files)
      ∨ ∃ e, c.resolveOnDisk (parserExtractors parsers) d entrypoint = .error (.reported e) := by
  have hanswers := c.answers_resolveOnDisk parsers d entrypoint
  generalize c.resolveOnDisk (parserExtractors parsers) d entrypoint = outcome at hanswers ⊢
  cases hanswers with
  | files files => exact Or.inl ⟨files, rfl⟩
  | unsupportedEntrypoint => exact Or.inr ⟨_, rfl⟩
  | unreadableEntrypoint why => exact Or.inr ⟨_, rfl⟩
  | limitExceeded path => exact Or.inr ⟨_, rfl⟩
  | faulty report => exact Or.inr ⟨_, rfl⟩

/-- The paths of a result have bytes, and so have the texts. -/
theorem isEncodable_of_resolveOnDisk
    (h : c.resolveOnDisk (parserExtractors parsers) d entrypoint = .ok files) :
    ∀ f ∈ files.entries, f.1.IsEncodable ∧ f.2.IsEncodable := by
  rintro ⟨path, content⟩ hmem
  rw [resolveOnDisk_eq] at h
  obtain ⟨hnormal, hread⟩ := Resolution.stored_of_ok h hmem
  exact ⟨Disk.isEncodable_path_of_read hnormal hread, Disk.isEncodable_of_read hread⟩

end Config

end ImportClosure
