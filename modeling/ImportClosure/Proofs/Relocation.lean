import ImportClosure.Proofs.Examination
import ImportClosure.Proofs.InnerPath
import ImportClosure.Proofs.Renaming
/-!
Moving files below a directory.

What a run deals with can be moved below a directory: files, findings, reports and errors, with all
paths in them (`relocate`). Each operation on findings commutes with moving them. So does a look-up
from a file at an inner path, unless its candidate leads out of the tree of relative paths: the dots
of such a candidate are kept in a relative path, and climb into the directory below a directory.
Hence looking at a file finds out the same before and after the move (`examine_relocate`), and
recording what was found out gives the same findings (`record_relocate`).
-/

namespace ImportClosure

open ImportClosure.Path (under IsInner IsBelow IsBase)

/-! ## Moving what a run deals with -/

/-- The file below a directory. -/
def SourceFile.relocate (root : Text) (f : SourceFile) : SourceFile :=
  { f with path := under root f.path }

/-- The reason for refusing a file, given below a directory: if the extension of the file tells no
grammar, it names the file. -/
def relocateReason (root path reason : Text) : Text :=
  if Variant.ofPath? path = none then ResolutionError.unsupportedExtension (under root path)
  else reason

/-- The files below a directory. -/
def relocateFiles (root : Text) (files : OrderedMap Text Text) : OrderedMap Text Text :=
  files.rename (under root) fun _ content => content

/-- The findings below a directory. -/
def Collector.relocate (root : Text) (c : Collector) : Collector where
  entrypoint := under root c.entrypoint
  files := relocateFiles root c.files
  missing := c.missing.rename (under root) fun _ referrers => referrers.map (under root)
  unparsed := c.unparsed.rename (under root) (relocateReason root)
  unsupported := c.unsupported.rename (under root) fun _ names => names

/-- The report below a directory. -/
def FaultReport.relocate (root : Text) (r : FaultReport) : FaultReport where
  entrypoint := under root r.entrypoint
  missing := r.missing.rename (under root) fun _ referrers => referrers.map (under root)
  unparsed := r.unparsed.rename (under root) (relocateReason root)
  unsupported := r.unsupported.rename (under root) fun _ names => names

/-- The error below a directory; the reason why an entrypoint cannot be read names it. -/
def ResolutionError.relocate (root : Text) : ResolutionError → ResolutionError
  | general e message => general (under root e) message
  | unsupportedEntrypoint e => unsupportedEntrypoint (under root e)
  | unreadableEntrypoint e reason =>
    unreadableEntrypoint (under root e)
      (reason.map fun _ => (ReadFailure.noSuchFile (under root e)).message)
  | limitExceeded e limit => limitExceeded (under root e) limit
  | faulty r => faulty (r.relocate root)

/-- The failure below a directory. -/
def Failure.relocate (root : Text) : Failure → Failure
  | reported error => reported (error.relocate root)
  | unencodable why => unencodable why
  | unfinished => unfinished

/-- The outcome of a run below a directory. -/
def relocateOutcome (root : Text) :
    Except Failure (OrderedMap Text Text) → Except Failure (OrderedMap Text Text)
  | .ok files => .ok (relocateFiles root files)
  | .error failure => .error (failure.relocate root)

/-- The storage `r'` has the inner paths of `r` below a directory, with the same texts. -/
def Reader.IsRelocated (root : Text) (r r' : Reader) : Prop :=
  ∀ path content, IsInner path →
    (r'.read (under root path) = .ok content ↔ r.read path = .ok content)

/-! ## Findings -/

theorem appendNew_map (root : Text) (known names : List Text) :
    appendNew (known.map (under root)) (names.map (under root))
      = (appendNew known names).map (under root) := by
  unfold appendNew
  induction names generalizing known with
  | nil => rfl
  | cons name names ih =>
    have hmem : under root name ∈ known.map (under root) ↔ name ∈ known :=
      List.mem_map_of_injective (under root).injective
    rw [List.map_cons, List.foldl_cons, List.foldl_cons, ← ih]
    by_cases h : name ∈ known
    · rw [if_pos h, if_pos (hmem.2 h)]
    · rw [if_neg h, if_neg fun hm => h (hmem.1 hm), List.map_append, List.map_singleton]

namespace Collector

variable (root : Text) (c : Collector) (path : Text)

theorem hasFile_relocate : (c.relocate root).hasFile (under root path) = c.hasFile path :=
  c.files.contains_rename (under root) _ path

theorem size_relocate : (c.relocate root).size = c.size :=
  c.files.size_rename (under root) _

theorem relocate_addFile (content : Text) :
    (c.addFile path content).relocate root
      = (c.relocate root).addFile (under root path) content := by
  unfold relocate addFile relocateFiles
  rw [OrderedMap.rename_insertIfNew]

theorem relocate_addUnparsed (reason : Text) :
    (c.addUnparsed path reason).relocate root
      = (c.relocate root).addUnparsed (under root path) (relocateReason root path reason) := by
  unfold relocate addUnparsed
  rw [OrderedMap.rename_insert]

theorem relocate_addUnsupported (names : List Text) :
    (c.addUnsupported path names).relocate root
      = (c.relocate root).addUnsupported (under root path) names := by
  have hget : (c.relocate root).unsupported.get? (under root path) = c.unsupported.get? path := by
    unfold relocate
    rw [OrderedMap.get?_rename, Option.map_id']
  unfold addUnsupported
  rw [hget]
  split
  · rfl
  · unfold relocate
    rw [OrderedMap.rename_insert]

theorem relocate_addMissing (referrer : Option Text) :
    (c.addMissing path referrer).relocate root
      = (c.relocate root).addMissing (under root path) (referrer.map (under root)) := by
  unfold relocate addMissing
  rw [OrderedMap.rename_insert, OrderedMap.get?_rename, Option.toList_map, ← appendNew_map]
  cases c.missing.get? path <;> rfl

theorem hasFaults_relocate : (c.relocate root).hasFaults = c.hasFaults := by
  unfold hasFaults relocate
  simp only [OrderedMap.isEmpty_rename]

theorem validate_relocate :
    (c.relocate root).validate = c.validate.mapError (ResolutionError.relocate root) := by
  unfold validate
  rw [hasFaults_relocate]
  split <;> rfl

end Collector

/-! ## Look-ups -/

namespace Candidate

variable {root c path : Text} {r r' : Reader} {v : Variant} {f : SourceFile}

theorem readable?_relocate (hr : r.IsRelocated root r') (h : IsInner path) :
    readable? r' (under root path) = (readable? r path).map (SourceFile.relocate root) := by
  cases hread : readable? r path with
  | none =>
    rw [readable?_eq_none_iff] at hread
    rw [Option.map_none, readable?_eq_none_iff]
    exact fun content hc => hread content ((hr path content h).1 hc)
  | some f =>
    rw [readable?_eq_some_iff] at hread
    rw [Option.map_some, readable?_eq_some_iff, Variant.ofPath?_under]
    unfold SourceFile.relocate
    exact ⟨(hr path _ h).2 hread.1, by rw [hread.2.1], hread.2.2⟩

theorem attempts_under (root : Text) (v : Variant) (c : Text) :
    attempts v (under root c) = (attempts v c).map (under root) := by
  unfold attempts
  rw [Path.extension_under]
  split
  · rw [List.map_map]
    exact List.map_congr_left fun e _ => Path.under_append root c e
  · rfl

theorem isInner_of_mem_attempts (hc : IsInner c) (h : path ∈ attempts v c) : IsInner path := by
  rcases mem_attempts_cases h with rfl | ⟨e, hlen, he, rfl⟩
  · exact hc
  · exact hc.append_suffix hlen he

theorem find?_relocate (hr : r.IsRelocated root r') (hc : IsInner c) :
    find? r' v (under root c) = (find? r v c).map (SourceFile.relocate root) := by
  -- stated of any inner paths that are tried in turn
  have hpaths : ∀ paths : List Text, (∀ p ∈ paths, IsInner p) →
      (paths.map (under root)).findSome? (readable? r')
        = (paths.findSome? (readable? r)).map (SourceFile.relocate root) := by
    intro paths
    induction paths with
    | nil => exact fun _ => rfl
    | cons p paths ih =>
      intro h
      obtain ⟨hp, hps⟩ := List.forall_mem_cons.1 h
      rw [List.map_cons, List.findSome?_cons, List.findSome?_cons, readable?_relocate hr hp]
      cases readable? r p with
      | some f => rfl
      | none => exact ih hps
  unfold find?
  rw [attempts_under]
  exact hpaths _ fun p hp => isInner_of_mem_attempts hc hp

theorem isInner_of_find? (hc : IsInner c) (h : find? r v c = some f) : IsInner f.path := by
  obtain ⟨q, hmem, hq⟩ := exists_of_find?_eq_some h
  rw [(readable?_eq_some_iff.1 hq).2.1]
  exact isInner_of_mem_attempts hc hmem

/-- The candidate of a specifier in an inner file is inner, if it does not lead out. -/
theorem isInner_ofSpecifier (hpath : IsInner path) {t : Text}
    (hbelow : IsBelow (ofSpecifier (Path.directory path) t)) :
    IsInner (ofSpecifier (Path.directory path) t) :=
  Path.isInner_normalize (Path.relative_join_directory hpath (head?_dropWhile_slash t)) hbelow

/-- It is the same candidate below a directory. -/
theorem ofSpecifier_under (hroot : IsBase root) (hpath : IsInner path) {t : Text}
    (hbelow : IsBelow (ofSpecifier (Path.directory path) t)) :
    ofSpecifier (Path.directory (under root path)) t
      = under root (ofSpecifier (Path.directory path) t) := by
  have ht := head?_dropWhile_slash t
  unfold ofSpecifier at hbelow ⊢
  rw [Path.join_directory_under hroot hpath ht,
    Path.normalize_under hroot (Path.relative_join_directory hpath ht) hbelow]

end Candidate

/-! ## One file -/

/-- Two computations succeed with results related by `R`, or fail with errors related by `E`. -/
inductive Alike {ε α : Type} (E : ε → ε → Prop) (R : α → α → Prop) :
    Except ε α → Except ε α → Prop
  /-- Both succeed. -/
  | ok {x x' : α} (h : R x x') : Alike E R (.ok x) (.ok x')
  /-- Both fail. -/
  | error {why why' : ε} (h : E why why') : Alike E R (.error why) (.error why')

namespace Alike

variable {ε α : Type} {E : ε → ε → Prop} {R : α → α → Prop} {z : Except ε α}

theorem exists_ok {x : α} (h : Alike E R (.ok x) z) : ∃ x', z = .ok x' ∧ R x x' := by
  cases h with
  | ok h => exact ⟨_, rfl, h⟩

theorem exists_error {why : ε} (h : Alike E R (.error why) z) :
    ∃ why', z = .error why' ∧ E why why' := by
  cases h with
  | error h => exact ⟨_, rfl, h⟩

end Alike

namespace Resolution

variable {root path : Text} {s : Settings} {r r' : Reader} {f : SourceFile} {v : Variant}
variable {m : Specifiers}

/-- The file is in the storage, at an inner path. -/
structure IsInnerFile (r : Reader) (f : SourceFile) : Prop where
  stored : Candidate.Stored r f
  inner : IsInner f.path

/-- If the file is accepted, no candidate of it leads out. -/
def AsksBelow (s : Settings) (f : SourceFile) : Prop :=
  ∀ v m, Parses s f v m → ∀ c ∈ candidates f.path m, IsBelow c

theorem asksBelow_of_parses (h : Parses s f v m) (hc : ∀ c ∈ candidates f.path m, IsBelow c) :
    AsksBelow s f := by
  intro v' m' h'
  rw [← (h.eq h').2]
  exact hc

theorem isInner_of_mem_candidates (hpath : IsInner path)
    (hbelow : ∀ c ∈ candidates path m, IsBelow c) : ∀ c ∈ candidates path m, IsInner c := by
  intro c hc
  obtain ⟨t, _, rfl⟩ := List.mem_map.1 hc
  exact Candidate.isInner_ofSpecifier hpath (hbelow _ hc)

theorem candidates_under (hroot : IsBase root) (hpath : IsInner path)
    (hbelow : ∀ c ∈ candidates path m, IsBelow c) :
    candidates (under root path) m = (candidates path m).map (under root) := by
  unfold candidates
  rw [List.map_map]
  exact List.map_congr_left fun t ht =>
    Candidate.ofSpecifier_under hroot hpath (hbelow _ (List.mem_map_of_mem ht))

/-- What a file contributes below a directory, how it was found out apart. -/
structure Examination.IsRelocated (root path : Text) (x x' : Examination) : Prop where
  fault : x'.fault = x.fault.map (relocateReason root path)
  unsupported : x'.unsupported = x.unsupported
  missing : x'.missing = x.missing.map (under root)
  found : x'.found = x.found.map (SourceFile.relocate root)

theorem accepted_relocate (hroot : IsBase root) (hr : r.IsRelocated root r')
    (hpath : IsInner path) (hbelow : ∀ c ∈ candidates path m, IsBelow c)
    (before before' : List Event) :
    (Examination.accepted s r path v m before).IsRelocated root path
      (.accepted s r' (under root path) v m before') := by
  have hfind : ∀ c ∈ candidates path m, Candidate.find? r' v (under root c)
      = (Candidate.find? r v c).map (SourceFile.relocate root) :=
    fun c hc => Candidate.find?_relocate hr (isInner_of_mem_candidates hpath hbelow c hc)
  refine ⟨rfl, rfl, ?_, ?_⟩
  · unfold Examination.accepted
    rw [candidates_under hroot hpath hbelow, List.filter_map]
    refine congrArg _ (List.filter_congr fun c hc => ?_)
    rw [Function.comp_apply, hfind c hc, Option.isNone_map]
  · unfold Examination.accepted
    rw [candidates_under hroot hpath hbelow, List.filterMap_map, List.map_filterMap]
    exact List.filterMap_congr hfind

/-- A file is refused below a directory as well, for the same reason unless that names the file. -/
theorem rejects_relocate (root : Text) {reason : Text} (hf : IsInnerFile r f)
    (h : Rejects s f reason) :
    Rejects s (f.relocate root) (relocateReason root f.path reason) := by
  have hvariant : f.variant = Variant.ofPath? f.path :=
    (Candidate.readable?_eq_some_iff.1 hf.stored).2.2
  unfold relocateReason
  rw [← hvariant]
  rcases h with ⟨hv, rfl⟩ | ⟨v, m, hv, hx⟩
  · rw [if_pos hv]
    exact Or.inl ⟨hv, rfl⟩
  · rw [if_neg (by rw [hv]; exact nofun)]
    exact Or.inr ⟨v, m, hv, hx⟩

/-- Looking at a file finds out the same below a directory. -/
theorem examine_relocate (hroot : IsBase root) (hr : r.IsRelocated root r')
    (hf : IsInnerFile r f) (hbelow : AsksBelow s f) :
    Alike (fun why why' => why' = why) (Examination.IsRelocated root f.path)
      (examine s r f) (examine s r' (f.relocate root)) := by
  rcases parses_or_rejects_or s r f with ⟨v, m, hp⟩ | ⟨reason, hrejects⟩ | ⟨why, hwhy⟩
  · have hp' : Parses s (f.relocate root) v m := hp
    rw [examine_of_parses hp, examine_of_parses hp']
    exact Alike.ok (accepted_relocate hroot hr hf.inner (hbelow v m hp) _ _)
  · have hx := examine_of_rejects (r := r) hrejects
    have hrejects' := rejects_relocate root hf hrejects
    have hx' := examine_of_rejects (r := r') hrejects'
    rw [hx, hx']
    exact Alike.ok ⟨rfl, rfl, rfl, rfl⟩
  · obtain ⟨v, hv, hx⟩ := examine_eq_error_iff.1 hwhy
    have hwhy' : examine s r' (f.relocate root) = .error why :=
      examine_eq_error_iff.2 ⟨v, hv, hx⟩
    rw [hwhy, hwhy']
    exact Alike.error rfl

theorem relocate_foldl_addMissing (root path : Text) (paths : List Text) (c : Collector) :
    (paths.foldl (fun c p => c.addMissing p (some path)) c).relocate root
      = (paths.map (under root)).foldl (fun c p => c.addMissing p (some (under root path)))
          (c.relocate root) := by
  induction paths generalizing c with
  | nil => rfl
  | cons p paths ih =>
    rw [List.foldl_cons, List.map_cons, List.foldl_cons, ih, Collector.relocate_addMissing,
      Option.map_some]

/-- What was found out is recorded in the same way below a directory. -/
theorem record_relocate {y y' : Examination} (h : y.IsRelocated root path y') (c : Collector) :
    record (under root path) y' (c.relocate root) = (record path y c).relocate root := by
  unfold record
  rw [relocate_foldl_addMissing, h.missing, h.unsupported, h.fault]
  cases y.fault with
  | none =>
    dsimp only [Option.map_none]
    split
    · rfl
    · rw [Collector.relocate_addUnsupported]
  | some reason =>
    dsimp only [Option.map_some]
    split
    · rw [Collector.relocate_addUnparsed]
    · rw [Collector.relocate_addUnsupported, Collector.relocate_addUnparsed]

end Resolution

end ImportClosure
