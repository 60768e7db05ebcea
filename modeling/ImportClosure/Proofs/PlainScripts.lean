import ImportClosure.Proofs.Closure
import ImportClosure.Proofs.Confinement
/-!
Runs that stay among plain scripts.

Plain scripts never pick up typed files, and that is a property of whole runs. A run whose
entrypoint is a plain script, and whose files name no candidate with the typed extension, never
comes to a typed file and never asks for one (`resolve_stays_plain`), whatever typed files lie
beside the plain ones. The invariant is one on paths: a typed path has the typed extension, so the
variant of a file that is queued need not be carried along, its path tells it. What a plain script
asks for on account of a candidate is the candidate itself, or the candidate with the plain suffix,
and a path that ends in the plain suffix does not have the typed extension, even if it has none at
all (`isPlain_append_suffix`), as is the case for a name made of dots.
-/

namespace ImportClosure

/-! ## Extensions -/

/-- An extension is the end of the path. -/
theorem Path.extension_suffix (p : Text) : extension p <:+ p := by
  have hname : lastComponent p <:+ p := by
    unfold lastComponent
    rw [← List.reverse_prefix, List.reverse_reverse]
    exact List.takeWhile_prefix _
  unfold extension
  dsimp only
  split
  · exact List.nil_suffix
  · exact (List.drop_suffix _ _).trans hname

theorem Variant.ofPath?_eq_some_iff {p : Text} {v : Variant} :
    ofPath? p = some v ↔ Path.extension p = v.suffix := by
  have hsuffix : javascript.suffix ≠ typescript.suffix := by decide
  unfold ofPath?
  dsimp only
  split
  · rename_i hext
    rw [hext]
    cases v <;> simp [hsuffix]
  · rename_i hplain
    split
    · rename_i hext
      rw [hext]
      cases v <;> simp [hsuffix.symm]
    · rename_i htyped
      cases v <;> simp [hplain, htyped]

/-- The path does not have the typed extension. -/
def IsPlain (p : Text) : Prop := Path.extension p ≠ Variant.typescript.suffix

instance (p : Text) : Decidable (IsPlain p) :=
  inferInstanceAs (Decidable (Path.extension p ≠ Variant.typescript.suffix))

theorem isPlain_iff {p : Text} : IsPlain p ↔ Variant.ofPath? p ≠ some .typescript := by
  unfold IsPlain
  rw [Ne, Ne, Variant.ofPath?_eq_some_iff]

/-- After the plain suffix there is no typed extension. -/
theorem isPlain_append_suffix (p : Text) : IsPlain (p ++ Variant.javascript.suffix) := by
  intro hext
  have htyped : Variant.typescript.suffix <:+ p ++ Variant.javascript.suffix := by
    rw [← hext]
    exact Path.extension_suffix _
  -- both suffixes are at the end, and as long as each other
  have hsuffix := List.suffix_of_suffix_length_le htyped (List.suffix_append p _) (by decide)
  exact absurd (hsuffix.eq_of_length (by decide)) (by decide)

namespace Resolution

variable {s : Settings} {r : Reader} {e f g : SourceFile} {entrypoint : Text}

/-! ## One file -/

/-- The file has no local specifier with a typed candidate. -/
def NamesPlain (s : Settings) (f : SourceFile) : Prop :=
  ∀ v m, Parses s f v m → ∀ c ∈ candidates f.path m, IsPlain c

/-- What a plain script asks for is plain, if its candidates are. -/
theorem isPlain_of_mem_attempts {c q : Text} (hc : IsPlain c)
    (hq : q ∈ Candidate.attempts .javascript c) : IsPlain q := by
  unfold Candidate.attempts at hq
  split at hq
  · obtain ⟨suffix, hsuffix, rfl⟩ := List.mem_map.1 hq
    rw [List.mem_singleton.1 hsuffix]
    exact isPlain_append_suffix c
  · rw [List.mem_singleton.1 hq]
    exact hc

/-- The path of a file of the storage tells that it is not typed. -/
theorem variant_ne_typescript (hf : Candidate.Stored r f) (hp : IsPlain f.path) :
    f.variant ≠ some .typescript := by
  rw [(Candidate.readable?_eq_some_iff.1 hf).2.2]
  exact isPlain_iff.1 hp

theorem handsOn_isPlain (hf : Candidate.Stored r f) (hnames : NamesPlain s f)
    (hp : IsPlain f.path) : HandsOn s r IsPlain f := by
  intro v m hparses c hc
  have hcandidate := hnames v m hparses c hc
  refine ⟨hcandidate, fun q hq => ?_⟩
  -- a file that is accepted is written in some grammar, and it is not the typed one
  have hv : v = .javascript := by
    have hne := variant_ne_typescript hf hp
    rw [hparses.1] at hne
    cases v with
    | javascript => rfl
    | typescript => exact absurd rfl hne
  rw [hv] at hq
  exact isPlain_of_mem_attempts hcandidate (Candidate.mem_attempts_of_mem_asked hq)

/-- What a file imports is plain, if what it asks for is. -/
theorem HandsOn.isPlain_of_imports (h : HandsOn s r IsPlain f) (hg : Imports s r f g) :
    IsPlain g.path := by
  obtain ⟨v, m, hparses, t, ht, hfind⟩ := hg
  have hc : Candidate.ofSpecifier (Path.directory f.path) t ∈ candidates f.path m :=
    List.mem_map_of_mem ht
  exact (h v m hparses _ hc).2 _ (Candidate.path_mem_asked_of_find? hfind)

/-! ## Whole runs -/

/-- The run from the entry file `e` keeps to plain scripts and to files in no grammar. -/
structure StaysPlain (s : Settings) (r : Reader) (e : SourceFile) : Prop where
  /-- No file that is taken is typed. -/
  taken : ∀ f, Takes s r e f → f.variant ≠ some .typescript
  /-- No file that is found is typed, be it one too many. -/
  found : ∀ f g, Takes s r e f → Imports s r f g → g.variant ≠ some .typescript
  /-- At every moment all paths in the findings, in the queue and asked for so far are plain. -/
  moments : ∀ w, ComesTo s r (start e) w → w.IsConfined IsPlain
  /-- However many rounds the run is given, it has asked for plain paths only. -/
  ends : ∀ n, (run s r n (start e)).IsConfined IsPlain

theorem IsEntry.staysPlain (he : IsEntry r entrypoint e) (hp : IsPlain e.path)
    (hnames : ∀ f, Takes s r e f → NamesPlain s f) : StaysPlain s r e := by
  have hstored : ∀ f, Takes s r e f → Candidate.Stored r f :=
    fun f hf => (hf.reachable he.stored).stored he.stored
  have hhands : ∀ f, Takes s r e f → IsPlain f.path → HandsOn s r IsPlain f :=
    fun f hf hfp => handsOn_isPlain (hstored f hf) (hnames f hf) hfp
  have hmoments : ∀ w, ComesTo s r (start e) w → w.IsConfined IsPlain :=
    fun w hw => hw.isConfined hp hhands
  have htaken : ∀ f, Takes s r e f → IsPlain f.path := by
    rintro f ⟨w, hw, hhead⟩
    exact (hmoments w hw).queue f (List.mem_of_head? hhead)
  refine ⟨?_, ?_, hmoments, run_isConfined hp hhands⟩
  · exact fun f hf => variant_ne_typescript (hstored f hf) (htaken f hf)
  · intro f g hf hg
    exact variant_ne_typescript hg.stored ((hhands f hf (htaken f hf)).isPlain_of_imports hg)

/-! ## A plain script beside a typed one -/

/-- The script `q.js` with the lines `./a` and `./...`. -/
def scriptQ : SourceFile :=
  ⟨['q', Path.dot, 'j', 's'],
    [Path.dot, Path.slash, 'a', '\n', Path.dot, Path.slash, Path.dot, Path.dot, Path.dot],
    some .javascript⟩

/-- The script in memory, with `a.js` and `b.js`, and typed files beside them. -/
def mixedScripts : MemoryFiles :=
  MemoryFiles.empty.addAll ([scriptQ, scriptA, scriptB].map SourceFile.entry
    ++ ([['a', Path.dot, 't', 's'], [Path.dot, Path.dot, Path.dot, Path.dot, 't', 's']] :
      List Text).map (·, []))

/-- **Plain runs.** A run from a plain script stays among plain scripts, if no file that it takes
names a typed candidate: at no moment has it visited a typed file, and at no moment has it asked for
a path with the typed extension, however it ends. Where there is no file at the entrypoint, the
entrypoint is all that it has asked for. -/
theorem resolve_stays_plain
    (hentry : Variant.ofPath? (Path.normalize entrypoint) = some .javascript)
    (hnames : ∀ e, IsEntry r entrypoint e → ∀ f, Takes s r e f → NamesPlain s f) :
    (∀ e, IsEntry r entrypoint e → StaysPlain s r e)
      ∧ (∀ path ∈ askedPaths (resolve s r entrypoint).trace, IsPlain path)
      ∧ ∀ files, (resolve s r entrypoint).outcome = .ok files →
          ∀ path ∈ files.keys, Variant.ofPath? path ≠ some .typescript := by
  have hp : IsPlain (Path.normalize entrypoint) := by
    rw [isPlain_iff, hentry]
    exact nofun
  have hstays : ∀ e, IsEntry r entrypoint e → StaysPlain s r e := by
    intro e he
    have hpe : IsPlain e.path := by rwa [he.path_eq]
    exact he.staysPlain hpe (hnames e he)
  have hconfined : (resolve s r entrypoint).IsConfined IsPlain := by
    by_cases hex : ∃ e, IsEntry r entrypoint e
    · obtain ⟨e, he⟩ := hex
      rw [he.resolve_eq]
      exact (hstays e he).ends _
    · exact isConfined_of_not_isEntry (fun e he => hex ⟨e, he⟩) hp
  exact ⟨hstays, hconfined.asked, fun files hfiles path hpath =>
    isPlain_iff.1 (hconfined.files files hfiles path hpath)⟩

/-- The run from `q.js` asks for `....js` in vain and finds `a.js`, although `....ts` and `a.ts` are
there as well. -/
theorem mixedScripts_stay_plain :
    (∃ t, mixedScripts.reader.read ['a', Path.dot, 't', 's'] = .ok t)
      ∧ askedPaths (resolve lineSettings mixedScripts.reader scriptQ.path).trace
        = [scriptQ.path, [Path.dot, Path.dot, Path.dot, Path.dot, 'j', 's'], scriptA.path,
          scriptB.path, scriptA.path]
      ∧ StaysPlain lineSettings mixedScripts.reader scriptQ := by
  have hentry : IsEntry mixedScripts.reader scriptQ.path scriptQ := ⟨rfl, nofun⟩
  have hclosed : ∀ g ∈ [scriptQ, scriptA, scriptB],
      ∀ g' ∈ importedFiles lineSettings mixedScripts.reader g,
        g' ∈ [scriptQ, scriptA, scriptB] := by decide
  refine ⟨⟨[], rfl⟩, rfl, (resolve_stays_plain rfl ?_).1 scriptQ hentry⟩
  intro e he f hf v m hp c hc
  obtain rfl : e = scriptQ := he.stored.eq_of_path_eq hentry.stored he.path_eq
  have hmem := (hf.reachable he.stored).mem_of_closed (by decide) hclosed
  simp only [List.mem_cons, List.not_mem_nil, or_false] at hmem
  -- the lines of each of the three scripts are its specifiers
  rcases hmem with rfl | rfl | rfl <;>
    · obtain ⟨_, rfl⟩ := hp.eq ⟨rfl, rfl⟩
      revert c
      decide

end Resolution

end ImportClosure
