import ImportClosure.Proofs.ImportGraph
/-!
What looking at a file finds out.

`examine` is the one place where a run reads specifiers. Its result is compared with the
relations of the import graph, field by field: the fault is the reason of `Rejects`, the packages
are those of `Lacks`, the missing candidates those of `Misses`, and the files found are the files
imported, in the order of the specifiers. Later modules cite these laws and do not open
`examine`.
-/

namespace ImportClosure.Resolution

variable {s : Settings} {r : Reader} {f g : SourceFile} {v : Variant} {m : Specifiers}

/-! ## The outcomes of an examination -/

/-- What a file contributes; nothing, if its text cannot be handed to the extractor. -/
def examined (s : Settings) (r : Reader) (f : SourceFile) : Examination :=
  match examine s r f with
  | .ok x => x
  | .error _ => {}

theorem examined_of_ok {x : Examination} (h : examine s r f = .ok x) : examined s r f = x := by
  unfold examined
  rw [h]

theorem examine_of_parses (h : Parses s f v m) :
    examine s r f = .ok (.accepted s r f.path v m [.extracting f.path v]) := by
  unfold examine
  rw [h.1]
  dsimp only
  rw [h.2]

theorem examine_of_rejects {reason : Text} (h : Rejects s f reason) :
    examine s r f
      = .ok (.refused f.path reason (f.variant.toList.map (.extracting f.path ·))) := by
  unfold examine
  rcases h with ⟨hv, rfl⟩ | ⟨v, m, hv, hx⟩
  · rw [hv]
    rfl
  · rw [hv]
    dsimp only
    rw [hx]
    rfl

/-- A file is accepted or refused, or its text cannot be handed to the extractor. -/
theorem parses_or_rejects_or (s : Settings) (r : Reader) (f : SourceFile) :
    (∃ v m, Parses s f v m) ∨ (∃ reason, Rejects s f reason)
      ∨ ∃ why, examine s r f = .error why := by
  unfold examine
  cases hv : f.variant with
  | none => exact Or.inr (Or.inl ⟨_, Or.inl ⟨hv, rfl⟩⟩)
  | some v =>
    cases hx : s.extract f.content v with
    | error why => exact Or.inr (Or.inr ⟨why, by dsimp only; rw [hx]⟩)
    | ok x =>
      obtain ⟨m, fault⟩ := x
      cases fault with
      | none => exact Or.inl ⟨v, m, hv, hx⟩
      | some reason => exact Or.inr (Or.inl ⟨reason, Or.inr ⟨v, m, hv, hx⟩⟩)

/-- A file cannot be looked at if its text cannot be handed to the extractor. -/
theorem examine_eq_error_iff {why : Text.Unencodable} :
    examine s r f = .error why ↔ ∃ v, f.variant = some v ∧ s.extract f.content v = .error why := by
  unfold examine
  cases f.variant with
  | none => simp
  | some v =>
    dsimp only
    cases hx : s.extract f.content v with
    | error why' => simp [hx]
    | ok x => cases hfault : x.fault <;> simp [hx, hfault]

/-- With total settings every file can be looked at. -/
theorem examine_eq_ok (hs : s.Total) (f : SourceFile) :
    examine s r f = .ok (examined s r f) := by
  rcases parses_or_rejects_or s r f with ⟨v, m, h⟩ | ⟨reason, h⟩ | ⟨why, h⟩
  · rw [examined_of_ok (examine_of_parses h), examine_of_parses h]
  · have hx := examine_of_rejects (r := r) h
    rw [examined_of_ok hx, hx]
  · obtain ⟨v, _, hx⟩ := examine_eq_error_iff.1 h
    obtain ⟨x, hx'⟩ := hs f.content v
    rw [hx'] at hx
    exact absurd hx nofun

theorem Parses.not_rejects (h : Parses s f v m) (reason : Text) : ¬ Rejects s f reason := by
  rintro (⟨hv, _⟩ | ⟨v', m', hv, hx⟩)
  · rw [h.1] at hv
    exact absurd hv nofun
  · have hvv : v = v' := Option.some.inj (h.1.symm.trans hv)
    rw [← hvv, h.2] at hx
    have hfault := congrArg Extraction.fault (Except.ok.inj hx)
    exact absurd hfault nofun

theorem examined_of_parses (h : Parses s f v m) :
    examined s r f = .accepted s r f.path v m [.extracting f.path v] :=
  examined_of_ok (examine_of_parses h)

/-- Only accepted files have specifiers. -/
theorem examined_of_not_parses (h : ∀ v m, ¬ Parses s f v m) :
    (examined s r f).unsupported = [] ∧ (examined s r f).missing = []
      ∧ (examined s r f).found = [] := by
  rcases parses_or_rejects_or s r f with ⟨v, m, hp⟩ | ⟨reason, hr⟩ | ⟨why, hw⟩
  · exact absurd hp (h v m)
  · have hx := examine_of_rejects (r := r) hr
    rw [examined_of_ok hx]
    exact ⟨rfl, rfl, rfl⟩
  · unfold examined
    rw [hw]
    exact ⟨rfl, rfl, rfl⟩

theorem not_rejects_of_error {why : Text.Unencodable} {reason : Text}
    (h : examine s r f = .error why) : ¬ Rejects s f reason := by
  intro hr
  have hx := examine_of_rejects (r := r) hr
  rw [hx] at h
  exact absurd h nofun

/-! ## The fields of an examination -/

theorem examined_found (s : Settings) (r : Reader) (f : SourceFile) :
    (examined s r f).found = importedFiles s r f := by
  by_cases h : ∃ v m, Parses s f v m
  · obtain ⟨v, m, hp⟩ := h
    rw [examined_of_parses hp, importedFiles_of_parses hp]
    unfold Examination.accepted candidates
    dsimp only
    rw [List.filterMap_map, Function.comp_def]
  · have hn : ∀ v m, ¬ Parses s f v m := fun v m hp => h ⟨v, m, hp⟩
    rw [importedFiles_of_not_parses hn]
    exact (examined_of_not_parses hn).2.2

theorem examined_fault_eq_some_iff {reason : Text} :
    (examined s r f).fault = some reason ↔ Rejects s f reason := by
  rcases parses_or_rejects_or s r f with ⟨v, m, hp⟩ | ⟨reason', hr⟩ | ⟨why, hw⟩
  · rw [examined_of_parses hp]
    exact ⟨nofun, fun hr => absurd hr (hp.not_rejects reason)⟩
  · have hx := examine_of_rejects (r := r) hr
    rw [examined_of_ok hx]
    constructor
    · intro h
      rw [← Option.some.inj h]
      exact hr
    · intro h
      have hx' := examine_of_rejects (r := r) h
      rw [hx] at hx'
      exact congrArg Examination.fault (Except.ok.inj hx')
  · have hx : examined s r f = {} := by
      unfold examined
      rw [hw]
    rw [hx]
    exact ⟨nofun, fun hr => absurd hr (not_rejects_of_error hw)⟩

theorem ascending_unsupported (s : Settings) (r : Reader) (f : SourceFile) :
    Text.Ascending (examined s r f).unsupported := by
  by_cases h : ∃ v m, Parses s f v m
  · obtain ⟨v, m, hp⟩ := h
    rw [examined_of_parses hp]
    exact m.packages.ascending.filter _
  · rw [(examined_of_not_parses (fun v m hp => h ⟨v, m, hp⟩)).1]
    exact List.Pairwise.nil

theorem mem_unsupported {name : Text} :
    name ∈ (examined s r f).unsupported ↔ Lacks s f name := by
  by_cases h : ∃ v m, Parses s f v m
  · obtain ⟨v, m, hp⟩ := h
    rw [examined_of_parses hp]
    have hmem : name ∈ (Examination.accepted s r f.path v m [.extracting f.path v]).unsupported
        ↔ name ∈ m.packages ∧ name ∉ s.allowed := by
      unfold Examination.accepted TextSet.filter
      rw [List.mem_filter, TextSet.mem_toList]
      simp
    exact hmem.trans hp.lacks_iff.symm
  · rw [(examined_of_not_parses (fun v m hp => h ⟨v, m, hp⟩)).1]
    constructor
    · exact fun hn => absurd hn List.not_mem_nil
    · rintro ⟨v, m, hp, _⟩
      exact absurd ⟨v, m, hp⟩ h

theorem mem_missing {c : Text} : c ∈ (examined s r f).missing ↔ Misses s r f c := by
  by_cases h : ∃ v m, Parses s f v m
  · obtain ⟨v, m, hp⟩ := h
    rw [examined_of_parses hp]
    have hmem : c ∈ (Examination.accepted s r f.path v m [.extracting f.path v]).missing
        ↔ (∃ t ∈ m.files, Candidate.ofSpecifier (Path.directory f.path) t = c)
          ∧ ∀ q ∈ Candidate.attempts v c, ∀ content, r.read q ≠ .ok content := by
      rw [← Candidate.find?_eq_none_iff]
      unfold Examination.accepted candidates
      rw [List.mem_filter, List.mem_map, Option.isNone_iff_eq_none]
      rfl
    exact hmem.trans hp.misses_iff.symm
  · rw [(examined_of_not_parses (fun v m hp => h ⟨v, m, hp⟩)).2.1]
    constructor
    · exact fun hc => absurd hc List.not_mem_nil
    · rintro ⟨v, m, hp, _⟩
      exact absurd ⟨v, m, hp⟩ h

/-! ## Sound files -/

theorem Sound.looked (h : Sound s r f) : examine s r f = .ok (examined s r f) := by
  obtain ⟨v, m, hp, _, _⟩ := h
  rw [examined_of_parses hp, examine_of_parses hp]

theorem Parses.unsupported_eq_nil_iff (h : Parses s f v m) :
    (examined s r f).unsupported = [] ↔ ∀ name ∈ m.packages, name ∈ s.allowed := by
  rw [List.eq_nil_iff_forall_not_mem]
  constructor
  · intro hnil name hname
    by_contra hn
    exact hnil name (mem_unsupported.2 ⟨v, m, h, hname, hn⟩)
  · intro hall name hname
    obtain ⟨hm, hn⟩ := h.lacks_iff.1 (mem_unsupported.1 hname)
    exact hn (hall name hm)

theorem Parses.missing_eq_nil_iff (h : Parses s f v m) :
    (examined s r f).missing = [] ↔ ∀ t ∈ m.files, ∃ q ∈ Candidate.attempts v
      (Candidate.ofSpecifier (Path.directory f.path) t), ∃ content, r.read q = .ok content := by
  rw [List.eq_nil_iff_forall_not_mem]
  constructor
  · intro hnil t ht
    by_contra hn
    refine hnil _ (mem_missing.2 ⟨v, m, h, ⟨t, ht, rfl⟩, ?_⟩)
    exact fun q hq content hread => hn ⟨q, hq, content, hread⟩
  · intro hall c hc
    obtain ⟨⟨t, ht, rfl⟩, hnone⟩ := h.misses_iff.1 (mem_missing.1 hc)
    obtain ⟨q, hq, content, hread⟩ := hall t ht
    exact hnone q hq content hread

/-- A file that can be looked at is sound if there is nothing to report about it. -/
theorem sound_iff_examined (hx : examine s r f = .ok (examined s r f)) :
    Sound s r f ↔ (examined s r f).fault = none ∧ (examined s r f).unsupported = []
      ∧ (examined s r f).missing = [] := by
  rcases parses_or_rejects_or s r f with ⟨v, m, hp⟩ | ⟨reason, hr⟩ | ⟨why, hw⟩
  · have hfault : (examined s r f).fault = none := by
      rw [examined_of_parses hp]
      rfl
    rw [hp.unsupported_eq_nil_iff, hp.missing_eq_nil_iff]
    exact hp.sound_iff.trans ⟨fun h => ⟨hfault, h⟩, fun h => h.2⟩
  · have hfault := (examined_fault_eq_some_iff (r := r)).2 hr
    rw [hfault]
    constructor
    · rintro ⟨v, m, hp, _⟩
      exact absurd hr (hp.not_rejects reason)
    · exact fun h => absurd h.1 nofun
  · rw [hx] at hw
    exact absurd hw nofun

end ImportClosure.Resolution
