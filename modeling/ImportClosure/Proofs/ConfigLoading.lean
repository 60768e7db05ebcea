import ImportClosure.Proofs.ConfigMerge
import ImportClosure.Proofs.Decoding
import ImportClosure.Proofs.Loaders
/-!
Loading a configuration.

Between a path and a configuration there are several stages: there has to be something at the path,
it has to be a file, its bytes have to be a text, the text has to be well-formed, its value has to
be one that can be made, it has to be a mapping, and what is reported about its entries has to be
written out. A stage that is not passed either leaves the defaults and one report, or it breaks the
loading off. Which of the two it is follows from what is in the file and from what the loader makes
of it (`IsLoadable`, `load_returns_iff`): damaged bytes to which the loader comes, a damaged value
and a report that cannot be written break off, and everything else leaves the defaults. Of the
loader nothing is assumed but `Loader.IsLawful`.
-/

namespace ImportClosure

namespace Config

variable {loader : Loader} {IsWellFormed : Text → Prop}
variable {c : Config} {d : Disk} {path t : Text} {content : Bytes} {log : List LogRecord}
  {entries : List (Value × Value)} {complaints : List (Value × Text)} {e : Value × Value}
  {x : Value × Text} {v : Value}

/-! ## What is in the file -/

/-- The path of the file: the one that is given, or that of the file in the working directory. -/
def place (d : Disk) : Option Text → Text
  | some path => Path.clean path
  | none => d.absolutePath fileName

/-- There is a file at a path, and its bytes are those of a text. -/
def HoldsText (d : Disk) (path t : Text) : Prop :=
  ∃ content, d.find path = .ok (.file content) ∧ decode content = .ok t

/-- There is a file at a path, and its text is loaded to a mapping. -/
def HoldsMapping (loader : Loader) (d : Disk) (path : Text) (entries : List (Value × Value)) :
    Prop :=
  ∃ t, HoldsText d path t ∧ loader.load path t = .ok (.mapping entries)

/-- What is said of an entry can be written out: a key that is no parameter's, or a value that its
parameter does not accept. -/
structure IsReportable (e : Value × Value) : Prop where
  /-- A key that is no parameter's. -/
  key : (∀ p : Parameter, e.1 ≠ .text p.name) → e.1.isWritable = true
  /-- A value that its parameter does not accept. -/
  value : ∀ p : Parameter, e.1 = .text p.name → ¬Accepts p e.2 → e.2.isWritable = true

/-- What is at a path breaks no stage of the loading off. -/
structure IsLoadable (loader : Loader) (IsWellFormed : Text → Prop) (d : Disk) (path : Text) :
    Prop where
  /-- The path is not longer than any name. -/
  named : d.find path ≠ .error .nameTooLong
  /-- The bytes of a file are those of a text, or the loader refuses it before it comes to those
  that are none. -/
  wellFormed : ∀ content, d.find path = .ok (.file content) → ¬Utf8.IsWellFormed content →
    ∃ why, loader.early? path content = some (.refused why)
  /-- The value of a text that is well-formed can be made. -/
  makeable : ∀ t, HoldsText d path t → IsWellFormed t → ∀ kind message,
    loader.load path t ≠ .error (.unmakeable kind message)
  /-- What is said of the entries of a mapping can be written out. -/
  reportable : ∀ entries, HoldsMapping loader d path entries → ∀ e ∈ entries, IsReportable e

theorem exists_decode_iff : (∃ t, decode content = .ok t) ↔ Utf8.IsWellFormed content := by
  rw [← Utf8.exists_decode_iff]
  unfold decode
  cases Utf8.decode content with
  | error why => exact iff_of_false nofun nofun
  | ok t => exact iff_of_true ⟨_, rfl⟩ ⟨t, rfl⟩

theorem not_holdsText (hfind : ∀ content, d.find path ≠ .ok (.file content)) :
    ¬HoldsText d path t := by
  rintro ⟨content, hfile, -⟩
  exact hfind content hfile

theorem holdsText_iff (hfind : d.find path = .ok (.file content)) :
    HoldsText d path t ↔ decode content = .ok t := by
  constructor
  · rintro ⟨content', hfind', hdecode⟩
    rw [hfind] at hfind'
    cases hfind'
    exact hdecode
  · exact fun hdecode => ⟨content, hfind, hdecode⟩

theorem not_holdsText_of_error {why : ConfigFailure} (hfind : d.find path = .ok (.file content))
    (hdecode : decode content = .error why) : ¬HoldsText d path t := by
  rw [holdsText_iff hfind, hdecode]
  exact nofun

/-! ## Reports that can be written -/

theorem isReportable_of_accepts {p : Parameter} (h : Accepts p v) :
    IsReportable (.text p.name, v) := by
  constructor
  · exact fun hunknown => absurd rfl (hunknown p)
  · intro q hname hv
    obtain rfl := Parameter.name_injective (Value.text.inj hname)
    exact absurd h hv

/-- What a complaint shows is what has to be written out. -/
theorem Complaint.isReportable_iff (h : Complaint e x) :
    IsReportable e ↔ x.1.isWritable = true := by
  constructor
  · intro hreportable
    cases h with
    | unknown hk => exact hreportable.key hk
    | invalid hv => exact hreportable.value _ rfl hv
  · intro hwritable
    cases h with
    | unknown hk => exact ⟨fun _ => hwritable, fun p hname => absurd hname (hk p)⟩
    | @invalid p v hv => exact ⟨fun hunknown => absurd rfl (hunknown p), fun _ _ _ => hwritable⟩

theorem Reports.forall_isReportable_iff (h : Reports entries complaints) :
    (∀ e ∈ entries, IsReportable e) ↔ ∀ x ∈ complaints, x.1.isWritable = true := by
  induction h with
  | nil => exact iff_of_true nofun nofun
  | accepted hv _ ih =>
    rw [List.forall_mem_cons, ih]
    exact and_iff_right (isReportable_of_accepts hv)
  | complaint hx _ ih => rw [List.forall_mem_cons, List.forall_mem_cons, ih, hx.isReportable_iff]

/-- Merging goes through exactly if all that it has to say can be written out. -/
theorem exists_merge_iff (hkeys : Value.KeysDiffer entries) :
    (∃ c log, standard.merge [] entries = .ok (c, log)) ↔ ∀ e ∈ entries, IsReportable e := by
  -- the complaints are the same whether they can be written or not; only the outcome differs
  obtain ⟨c', complaints, -, hreports, hmerge⟩ := exists_merge_eq hkeys standard []
  rw [hmerge, hreports.forall_isReportable_iff, ← outcome_eq_ok_iff (c := c')]
  constructor
  · rintro ⟨c, log, h⟩
    unfold outcome at h ⊢
    split_ifs at h ⊢
    rfl
  · exact fun h => ⟨_, _, h⟩

/-! ## Texts -/

theorem ofText_of_failure {failure : LoadFailure} (hload : loader.load path t = .error failure) :
    ofText loader path t = ofFailure path failure := by
  unfold ofText
  rw [hload]

/-- What comes of a text: the mapping that it is loaded to is merged, a failure of the loader is
handed on, and every other value leaves the defaults. -/
theorem ofText_cases (loader : Loader) (path t : Text) :
    (∃ entries, loader.load path t = .ok (.mapping entries)
      ∧ ofText loader path t = (standard.merge [] entries).mapError .unwritable)
    ∨ (∃ failure, loader.load path t = .error failure
      ∧ ofText loader path t = ofFailure path failure)
    ∨ ∃ v message, loader.load path t = .ok v ∧ (∀ entries, v ≠ .mapping entries)
      ∧ ofText loader path t = .ok (standard, [warning message]) := by
  cases hload : loader.load path t with
  | error failure => exact Or.inr (Or.inl ⟨failure, rfl, ofText_of_failure hload⟩)
  | ok v =>
    by_cases hv : ∃ entries, v = .mapping entries
    · obtain ⟨entries, rfl⟩ := hv
      exact Or.inl ⟨entries, rfl, ofText_of_mapping hload⟩
    · rw [not_exists] at hv
      have hdefaults : ∃ message, ofText loader path t = .ok (standard, [warning message]) :=
        ofText_of_ne_mapping hload hv
      obtain ⟨message, htext⟩ := hdefaults
      exact Or.inr (Or.inr ⟨v, message, rfl, hv, htext⟩)

/-- A failure of the loader that does not break off leaves the defaults. -/
theorem defaults_of_ofFailure {failure : LoadFailure} (h : ofFailure path failure = .ok (c, log)) :
    c = standard ∧ ∃ record, log = [record] := by
  cases failure with
  | refused why =>
    cases h
    exact ⟨rfl, _, rfl⟩
  | unmakeable kind message => cases h

/-- A configuration from a text is merged from the mapping that it is loaded to, or it is the
defaults. -/
theorem ofText_eq_ok_cases (h : ofText loader path t = .ok (c, log)) :
    (∃ entries, loader.load path t = .ok (.mapping entries)
      ∧ standard.merge [] entries = .ok (c, log))
    ∨ ((∀ entries, loader.load path t ≠ .ok (.mapping entries)) ∧ c = standard
      ∧ ∃ record, log = [record]) := by
  rcases ofText_cases loader path t with ⟨entries, hload, htext⟩ | ⟨failure, hload, htext⟩
    | ⟨v, message, hload, hmapping, htext⟩
  · rw [htext] at h
    exact Or.inl ⟨entries, hload, mapError_eq_ok_iff.1 h⟩
  · rw [htext] at h
    rw [hload]
    exact Or.inr ⟨nofun, defaults_of_ofFailure h⟩
  · rw [htext] at h
    cases h
    rw [hload]
    exact Or.inr ⟨fun entries heq => hmapping entries (Except.ok.inj heq), rfl, _, rfl⟩

/-- A text leads to a configuration exactly if its value can be made, where it is well-formed, and
where this is a mapping, all that there is to be said of the entries can be written out. -/
theorem exists_ofText_iff (h : loader.IsLawful IsWellFormed) :
    (∃ c log, ofText loader path t = .ok (c, log))
      ↔ (IsWellFormed t → ∀ kind message, loader.load path t ≠ .error (.unmakeable kind message))
        ∧ ∀ entries, loader.load path t = .ok (.mapping entries) →
          ∀ e ∈ entries, IsReportable e := by
  rcases ofText_cases loader path t with ⟨entries, hload, htext⟩ | ⟨failure, hload, htext⟩
    | ⟨v, message, hload, hmapping, htext⟩
  · simp only [htext, mapError_eq_ok_iff]
    rw [exists_merge_iff (h.keysDiffer path t entries hload), hload]
    constructor
    · intro hreportable
      refine ⟨fun _ => nofun, ?_⟩
      rintro entries' ⟨⟩
      exact hreportable
    · exact fun hall => hall.2 entries rfl
  · rw [htext, hload]
    cases failure with
    | refused why => exact iff_of_true ⟨_, _, rfl⟩ ⟨fun _ => nofun, nofun⟩
    | unmakeable kind message =>
      refine iff_of_false nofun ?_
      rintro ⟨hmakeable, -⟩
      -- only a text that is well-formed is not refused
      refine hmakeable (of_not_not fun hmalformed => ?_) kind message rfl
      obtain ⟨why, hrefused⟩ := h.refused path t hmalformed
      rw [hload] at hrefused
      cases hrefused
  · rw [htext, hload]
    refine iff_of_true ⟨_, _, rfl⟩ ⟨fun _ => nofun, ?_⟩
    intro entries heq
    exact absurd (Except.ok.inj heq) (hmapping entries)

/-! ## Files -/

theorem loadWith_eq_ofFile (loader : Loader) (d : Disk) (path : Option Text) :
    loadWith loader d path = ofFile loader d (place d path) := by
  cases path <;> rfl

/-- Where there is no file, nothing is read. -/
theorem isLoadable_of_not_file (hnamed : d.find path ≠ .error .nameTooLong)
    (hfind : ∀ content, d.find path ≠ .ok (.file content)) :
    IsLoadable loader IsWellFormed d path where
  named := hnamed
  wellFormed := fun content h => absurd h (hfind content)
  makeable := fun _ h => absurd h (not_holdsText hfind)
  reportable := fun _ ⟨_, h, _⟩ => absurd h (not_holdsText hfind)

/-- A file with a text is loadable if the text is. -/
theorem isLoadable_iff_of_text (hfind : d.find path = .ok (.file content))
    (hdecode : decode content = .ok t) :
    IsLoadable loader IsWellFormed d path
      ↔ (IsWellFormed t → ∀ kind message, loader.load path t ≠ .error (.unmakeable kind message))
        ∧ ∀ entries, loader.load path t = .ok (.mapping entries) →
          ∀ e ∈ entries, IsReportable e := by
  -- there is one text in the file, so what the fields ask of every text is asked of it alone
  have htext : ∀ {u}, HoldsText d path u ↔ u = t := by
    intro u
    rw [holdsText_iff hfind, hdecode, Except.ok.injEq, eq_comm]
  constructor
  · intro h
    refine ⟨h.makeable t (htext.2 rfl), ?_⟩
    exact fun entries hload => h.reportable entries ⟨t, htext.2 rfl, hload⟩
  · rintro ⟨hmakeable, hreportable⟩
    refine ⟨?_, ?_, ?_, ?_⟩
    · rw [hfind]
      exact nofun
    · intro content' hfind' hdamaged
      rw [hfind] at hfind'
      cases hfind'
      exact absurd (exists_decode_iff.1 ⟨t, hdecode⟩) hdamaged
    · intro u hu
      rwa [htext.1 hu]
    · rintro entries ⟨u, hu, hload⟩
      rw [htext.1 hu] at hload
      exact hreportable entries hload

theorem isLoadable_iff_of_not_text {why : ConfigFailure}
    (hfind : d.find path = .ok (.file content)) (hdecode : decode content = .error why) :
    IsLoadable loader IsWellFormed d path
      ↔ ∃ why, loader.early? path content = some (.refused why) := by
  have hdamaged : ¬Utf8.IsWellFormed content := by
    rw [← exists_decode_iff, hdecode]
    exact nofun
  have hnone : ∀ t, ¬HoldsText d path t := fun t => not_holdsText_of_error hfind hdecode
  constructor
  · exact fun h => h.wellFormed content hfind hdamaged
  · intro hearly
    refine ⟨?_, ?_, fun t h => absurd h (hnone t), fun _ ⟨t, h, _⟩ => absurd h (hnone t)⟩
    · rw [hfind]
      exact nofun
    · intro content' hfind' _
      rw [hfind] at hfind'
      cases hfind'
      exact hearly

/-- What may be found: nothing, for a path that is too long, no file, a file that is no text, and a
file that is one. -/
theorem find_cases (d : Disk) (path : Text) :
    d.find path = .error .nameTooLong
    ∨ (d.find path ≠ .error .nameTooLong ∧ ∀ content, d.find path ≠ .ok (.file content))
    ∨ (∃ content why, d.find path = .ok (.file content) ∧ decode content = .error why)
    ∨ ∃ content t, d.find path = .ok (.file content) ∧ decode content = .ok t := by
  by_cases hnamed : d.find path = .error .nameTooLong
  · exact Or.inl hnamed
  · by_cases hfile : ∃ content, d.find path = .ok (.file content)
    · obtain ⟨content, hfind⟩ := hfile
      cases hdecode : decode content with
      | error why => exact Or.inr (Or.inr (Or.inl ⟨content, why, hfind, hdecode⟩))
      | ok t => exact Or.inr (Or.inr (Or.inr ⟨content, t, hfind, hdecode⟩))
    · exact Or.inr (Or.inl ⟨hnamed, not_exists.1 hfile⟩)

theorem ofFile_nameTooLong (hfind : d.find path = .error .nameTooLong) :
    ofFile loader d path = .error (.nameTooLong path) := by
  unfold ofFile
  rw [hfind]

theorem ofFile_of_not_file (hnamed : d.find path ≠ .error .nameTooLong)
    (hfind : ∀ content, d.find path ≠ .ok (.file content)) :
    ∃ record, ofFile loader d path = .ok (standard, [record]) := by
  unfold ofFile
  cases hentry : d.find path with
  | error fault =>
    cases fault with
    | nameTooLong => exact absurd hentry hnamed
    | absent | present | notADirectory | isADirectory => exact ⟨_, rfl⟩
  | ok entry =>
    cases entry with
    | directory => exact ⟨_, rfl⟩
    | file content => exact absurd hentry (hfind content)

/-- What comes of bytes that are no text: what the loader failed on before it came to them, or the
damage itself. -/
theorem ofFile_of_not_text {why : ConfigFailure} (hfind : d.find path = .ok (.file content))
    (hdecode : decode content = .error why) :
    (∃ failure, loader.early? path content = some failure
      ∧ ofFile loader d path = ofFailure path failure)
    ∨ (loader.early? path content = none ∧ ofFile loader d path = .error why) := by
  unfold ofFile
  rw [hfind]
  dsimp only
  rw [hdecode]
  cases loader.early? path content with
  | some failure => exact Or.inl ⟨failure, rfl, rfl⟩
  | none => exact Or.inr ⟨rfl, rfl⟩

/-- A file that is no text leads to a configuration exactly if the loader refuses it before it comes
to the damage. -/
theorem exists_ofFile_iff_of_not_text {why : ConfigFailure}
    (hfind : d.find path = .ok (.file content)) (hdecode : decode content = .error why) :
    (∃ c log, ofFile loader d path = .ok (c, log))
      ↔ ∃ why, loader.early? path content = some (.refused why) := by
  rcases ofFile_of_not_text hfind hdecode with ⟨failure, hearly, hfile⟩ | ⟨hearly, hfile⟩
  · rw [hearly, hfile]
    cases failure with
    | refused words => exact iff_of_true ⟨_, _, rfl⟩ ⟨words, rfl⟩
    | unmakeable kind message => exact iff_of_false nofun nofun
  · rw [hearly, hfile]
    exact iff_of_false nofun nofun

/-- **Stages.** A file leads to a configuration exactly if what is there breaks no stage off. -/
theorem exists_ofFile_iff (h : loader.IsLawful IsWellFormed) :
    (∃ c log, ofFile loader d path = .ok (c, log)) ↔ IsLoadable loader IsWellFormed d path := by
  rcases find_cases d path with hlong | ⟨hnamed, hfind⟩ | ⟨content, why, hfind, hdecode⟩
    | ⟨content, t, hfind, hdecode⟩
  · rw [ofFile_nameTooLong hlong]
    exact iff_of_false nofun fun h => h.named hlong
  · obtain ⟨record, hfile⟩ := ofFile_of_not_file hnamed hfind
    exact iff_of_true ⟨_, _, hfile⟩ (isLoadable_of_not_file hnamed hfind)
  · rw [exists_ofFile_iff_of_not_text hfind hdecode, isLoadable_iff_of_not_text hfind hdecode]
  · rw [ofFile_eq_ofText hfind hdecode, exists_ofText_iff h, isLoadable_iff_of_text hfind hdecode]

/-- A configuration from a file is merged from the mapping in it, or it is the defaults, of which
there is one report. -/
theorem ofFile_eq_ok_cases (h : ofFile loader d path = .ok (c, log)) :
    (∃ entries, HoldsMapping loader d path entries ∧ standard.merge [] entries = .ok (c, log))
    ∨ ((∀ entries, ¬HoldsMapping loader d path entries) ∧ c = standard
      ∧ ∃ record, log = [record]) := by
  rcases find_cases d path with hlong | ⟨hnamed, hfind⟩ | ⟨content, why, hfind, hdecode⟩
    | ⟨content, t, hfind, hdecode⟩
  · rw [ofFile_nameTooLong hlong] at h
    cases h
  · obtain ⟨record, hfile⟩ := ofFile_of_not_file hnamed hfind
    rw [hfile] at h
    cases h
    exact Or.inr ⟨fun entries ⟨t, htext, _⟩ => not_holdsText hfind htext, rfl, record, rfl⟩
  · refine Or.inr ⟨fun entries ⟨t, htext, _⟩ => not_holdsText_of_error hfind hdecode htext, ?_⟩
    rcases ofFile_of_not_text hfind hdecode with ⟨failure, -, hfile⟩ | ⟨-, hfile⟩
    · rw [hfile] at h
      exact defaults_of_ofFailure h
    · rw [hfile] at h
      cases h
  · rw [ofFile_eq_ofText hfind hdecode] at h
    rcases ofText_eq_ok_cases h with ⟨entries, hload, hmerge⟩ | ⟨hmapping, hdefaults⟩
    · exact Or.inl ⟨entries, ⟨t, ⟨content, hfind, hdecode⟩, hload⟩, hmerge⟩
    · refine Or.inr ⟨?_, hdefaults⟩
      -- there is one text in the file, so it holds a mapping only if this text is loaded to one
      rintro entries ⟨u, hu, hload⟩
      rw [holdsText_iff hfind, hdecode] at hu
      cases hu
      exact hmapping entries hload

/-- A text that is not well-formed leaves the defaults, and the words of the loader are reported. -/
theorem ofFile_of_malformed (h : loader.IsLawful IsWellFormed) (htext : HoldsText d path t)
    (hmalformed : ¬IsWellFormed t) : ∃ why, loader.load path t = .error (.refused why)
      ∧ ofFile loader d path = .ok (usingDefaults (refusedFile path why)) := by
  obtain ⟨content, hfind, hdecode⟩ := htext
  obtain ⟨why, hload⟩ := h.refused path t hmalformed
  exact ⟨why, hload, (ofFile_eq_ofText hfind hdecode).trans (ofText_of_failure hload)⟩

/-- **Loading.** Loading a configuration from the file that is named, or from that of the working
directory, leads to a configuration exactly if the path is not too long, the bytes of the file are
those of a text or the loader refuses it before it comes to those that are none, the value of the
text can be made if it is well-formed, and where this is a mapping, each key that is no parameter's
and each value that is not accepted can be written out. So it does where there is no file or a
directory, and where the text is not well-formed: then what the loader says is reported. What it
leads to is settled by the mapping in the file, and where there is none, for whatever reason, it is
the defaults, and there is one report. -/
theorem load_returns_iff (h : loader.IsLawful IsWellFormed) (d : Disk) (path : Option Text) :
    ((∃ c log, loadWith loader d path = .ok (c, log))
        ↔ IsLoadable loader IsWellFormed d (place d path))
      ∧ (∀ c log, loadWith loader d path = .ok (c, log) →
        (∃ entries, HoldsMapping loader d (place d path) entries ∧ Settles standard entries c)
        ∨ ((∀ entries, ¬HoldsMapping loader d (place d path) entries) ∧ c = standard
          ∧ ∃ record, log = [record]))
      ∧ ∀ t, HoldsText d (place d path) t → ¬IsWellFormed t →
        ∃ why, loader.load (place d path) t = .error (.refused why)
          ∧ loadWith loader d path = .ok (usingDefaults (refusedFile (place d path) why)) := by
  rw [loadWith_eq_ofFile]
  refine ⟨exists_ofFile_iff h, ?_, fun t htext => ofFile_of_malformed h htext⟩
  intro c log hfile
  rcases ofFile_eq_ok_cases hfile with ⟨entries, hholds, hmerge⟩ | hdefaults
  · obtain ⟨t, htext, hload⟩ := hholds
    have hsettles := settles_of_ofValue? (h.keysDiffer _ t entries hload) (congrArg some hmerge)
    exact Or.inl ⟨entries, ⟨t, htext, hload⟩, hsettles⟩
  · exact Or.inr hdefaults

/-! ## Files with a fault -/

/-- The file is there, and it is empty. -/
theorem emptyFile_loaded :
    Yaml.loader.IsLawful Yaml.IsWellFormed
      ∧ IsLoadable Yaml.loader Yaml.IsWellFormed (diskConfiguredBy [])
        (place (diskConfiguredBy []) none)
      ∧ ∃ c log, loadWith Yaml.loader (diskConfiguredBy []) none = .ok (c, log) ∧ c = standard
        ∧ ∃ record, log = [record] := by
  have hfind : (diskConfiguredBy []).find (place (diskConfiguredBy []) none) = .ok (.file []) :=
    find_emptyFile
  have hnone : ∀ entries, Yaml.load [] ≠ .ok (.mapping entries) := nofun
  have hloadable : IsLoadable Yaml.loader Yaml.IsWellFormed (diskConfiguredBy [])
      (place (diskConfiguredBy []) none) :=
    (isLoadable_iff_of_text hfind rfl).2
      ⟨fun _ => nofun, fun entries h => absurd h (hnone entries)⟩
  obtain ⟨hiff, hcases, -⟩ := load_returns_iff Yaml.isLawful_loader (diskConfiguredBy []) none
  obtain ⟨c, log, hload⟩ := hiff.2 hloadable
  refine ⟨Yaml.isLawful_loader, hloadable, c, log, hload, ?_⟩
  rcases hcases c log hload with ⟨entries, ⟨t, htext, hmapping⟩, -⟩ | ⟨-, hdefaults⟩
  · rw [holdsText_iff hfind] at htext
    cases htext
    exact absurd hmapping (hnone entries)
  · exact hdefaults

/-- Not every file is loaded, whatever the loader: a first byte that begins no sequence breaks the
loading off. -/
theorem strayByte_breaks_off :
    ¬∃ (loader : Loader) (IsWellFormed : Text → Prop), loader.IsLawful IsWellFormed
      ∧ ∀ (d : Disk) (path : Option Text), ∃ c log, loadWith loader d path = .ok (c, log) := by
  rintro ⟨loader, IsWellFormed, h, hall⟩
  obtain ⟨c, log, hload⟩ := hall (diskConfiguredBy [0xFF]) none
  have hfind : (diskConfiguredBy [0xFF]).find (place (diskConfiguredBy [0xFF]) none)
      = .ok (.file [0xFF]) := by decide +kernel
  have hdecode : decode [0xFF] = .error (.undecodable ⟨.invalidStart, 0, [0xFF]⟩) := rfl
  rw [loadWith_eq_ofFile] at hload
  obtain ⟨why, hearly⟩ := (exists_ofFile_iff_of_not_text hfind hdecode).1 ⟨c, log, hload⟩
  rw [h.unseen _ [0xFF] ⟨.invalidStart, 0, [0xFF]⟩ rfl rfl] at hearly
  cases hearly

end Config

end ImportClosure
