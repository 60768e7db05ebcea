import ImportClosure.Proofs.AddedPackages
import ImportClosure.Proofs.ConfigLoading
/-!
Configurations that pass their own checks.

What a configuration is made of was checked when it was merged: each parameter has a value that it
accepts (`IsValid`), since the defaults are accepted and an entry is only taken if its value is
(`IsValid.merge`). Packages that are added later are not checked. So three parameters always pass
the check, and the list of packages passes it exactly if no name that was ever given is empty
(`reached_accepts`): the one way in which validity is lost is an empty name.
-/

namespace ImportClosure

namespace Config

variable {loader : Loader} {c c' : Config} {p : Parameter} {v : Value} {names given : List Text}
  {log log' : List LogRecord} {e : Value × Value} {entries : List (Value × Value)}

/-! ## Accepted values -/

/-- Each parameter has a value that it accepts. -/
def IsValid (c : Config) : Prop := ∀ p, Accepts p (c.get p)

theorem exists_ofTexts_iff :
    (∃ names' : List Text, Value.ofTexts names = .ofTexts names' ∧ [] ∉ names') ↔ [] ∉ names := by
  constructor
  · rintro ⟨names', heq, hnames⟩
    rwa [Value.ofTexts_injective heq]
  · exact fun hnames => ⟨names, rfl, hnames⟩

theorem accepts_builtinModules_iff :
    Accepts .builtinModules (c.get .builtinModules) ↔ [] ∉ c.builtinModules :=
  exists_ofTexts_iff

theorem accepts_allowedPackages_iff :
    Accepts .allowedPackages (c.get .allowedPackages) ↔ [] ∉ c.allowedPackages :=
  exists_ofTexts_iff

theorem accepts_maxFiles_iff : Accepts .maxFiles (c.get .maxFiles) ↔ 0 ≤ c.maxFiles := by
  constructor
  · rintro ⟨i, hi, hle⟩
    rwa [Value.int.inj hi]
  · exact fun hle => ⟨c.maxFiles, rfl, hle⟩

theorem accepts_maxFileSizeKb_iff :
    Accepts .maxFileSizeKb (c.get .maxFileSizeKb) ↔ 0 < c.maxFileSizeKb := by
  constructor
  · rintro ⟨i, hi, hlt⟩
    rwa [Value.int.inj hi]
  · exact fun hlt => ⟨c.maxFileSizeKb, rfl, hlt⟩

/-- A parameter accepts the value that it has exactly if taking it once more changes nothing. -/
theorem set?_get_iff : c.set? (c.get p) p = some c ↔ Accepts p (c.get p) := by
  constructor
  · exact fun h => exists_set?_iff.1 ⟨c, h⟩
  · intro h
    obtain ⟨c', hset⟩ := exists_set?_iff.2 h
    obtain ⟨hp, hother⟩ := get_of_set? hset
    have hsame : c' = c := by
      apply ext_get
      intro q
      by_cases hq : q = p
      · rw [hq, hp]
      · exact hother q hq
    rw [hset, hsame]

/-! ## Merged configurations -/

/-- Every default passes its own check. -/
theorem isValid_standard : standard.IsValid := by
  intro p
  cases p with
  | builtinModules => exact accepts_builtinModules_iff.2 (by decide)
  | allowedPackages => exact accepts_allowedPackages_iff.2 List.not_mem_nil
  | maxFiles => exact accepts_maxFiles_iff.2 (le_refl 0)
  | maxFileSizeKb => exact accepts_maxFileSizeKb_iff.2 (by decide)

theorem IsValid.set? (h : c.IsValid) (hset : c.set? v p = some c') : c'.IsValid := by
  obtain ⟨hp, hother⟩ := get_of_set? hset
  intro q
  by_cases hq : q = p
  · rw [hq, hp]
    exact exists_set?_iff.1 ⟨c', hset⟩
  · rw [hother q hq]
    exact h q

/-- One entry: its value is taken if it is accepted, and otherwise nothing changes. -/
theorem IsValid.mergeEntry (h : c.IsValid) (hmerge : c.mergeEntry log e = .ok (c', log')) :
    c'.IsValid := by
  rcases mergeEntry_cases c log e with ⟨p, v, c₁, -, -, hset, heq⟩ | ⟨x, -, heq⟩
  · rw [heq] at hmerge
    cases hmerge
    exact h.set? hset
  · -- it is reported, and the configuration is handed on as it is
    rw [heq, map_eq_ok_iff] at hmerge
    obtain ⟨_, -, hpair⟩ := hmerge
    cases hpair
    exact h

/-- **Merging.** What entries make of a valid configuration is valid, whatever the entries are. -/
theorem IsValid.merge (h : c.IsValid) (hmerge : c.merge log entries = .ok (c', log')) :
    c'.IsValid := by
  induction entries generalizing c log with
  | nil =>
    cases hmerge
    exact h
  | cons e entries ih =>
    rw [Config.merge] at hmerge
    cases hentry : c.mergeEntry log e with
    | error why =>
      rw [hentry] at hmerge
      cases hmerge
    | ok result =>
      rw [hentry] at hmerge
      exact ih (h.mergeEntry hentry) hmerge

theorem isValid_of_ofValue? (h : ofValue? v = some (.ok (c, log))) : c.IsValid := by
  cases v with
  | mapping entries => exact isValid_standard.merge (Option.some.inj h)
  | _ => cases h

theorem isValid_of_loadWith {d : Disk} {path : Option Text}
    (h : loadWith loader d path = .ok (c, log)) : c.IsValid := by
  rw [loadWith_eq_ofFile] at h
  rcases ofFile_eq_ok_cases h with ⟨entries, -, hmerge⟩ | ⟨-, rfl, -⟩
  · exact isValid_standard.merge hmerge
  · exact isValid_standard

/-! ## Packages added later -/

/-- A configuration that comes of a value or of a file, and of any calls that add packages to it;
and all the names that these calls were given. -/
inductive IsReached (loader : Loader) : Config → List Text → Prop
  | ofValue {v : Value} {c : Config} {log : List LogRecord}
    (h : ofValue? v = some (.ok (c, log))) : IsReached loader c []
  | ofFile {d : Disk} {path : Option Text} {c : Config} {log : List LogRecord}
    (h : loadWith loader d path = .ok (c, log)) : IsReached loader c []
  | added {c : Config} {given : List Text} (h : IsReached loader c given) (names : List Text) :
    IsReached loader (c.withAllowedPackages names) (given ++ names)

/-- Whatever the calls were, they come to one, which was made on a valid configuration. -/
theorem IsReached.exists_valid (h : IsReached loader c given) :
    ∃ c₀ : Config, c₀.IsValid ∧ c = c₀.withAllowedPackages given := by
  induction h with
  | ofValue h => exact ⟨_, isValid_of_ofValue? h, rfl⟩
  | ofFile h => exact ⟨_, isValid_of_loadWith h, rfl⟩
  | added _ names ih =>
    obtain ⟨c₀, hvalid, rfl⟩ := ih
    exact ⟨c₀, hvalid, (withAllowedPackages_append c₀ _ names).symm⟩

/-- **Validity.** Of every configuration that comes of a mapping or of a file, whatever the loader
makes of it, and of any calls that add packages to it, the built-in modules, the limit of files and
the size of a file pass their check: no built-in module has an empty name, the limit is not
negative, and the size is positive. The list of packages passes exactly if none of the names that
were given to the calls is empty, and an empty name is in the list exactly if one was given. The
check of a parameter is that it takes its own value and that nothing changes by it. -/
theorem reached_accepts (h : IsReached loader c given) :
    (∀ p, p ≠ .allowedPackages → Accepts p (c.get p))
      ∧ (Accepts .allowedPackages (c.get .allowedPackages) ↔ [] ∉ given)
      ∧ (c.IsValid ↔ [] ∉ given)
      ∧ [] ∉ c.builtinModules ∧ 0 ≤ c.maxFiles ∧ 0 < c.maxFileSizeKb
      ∧ ([] ∈ c.allowedPackages ↔ [] ∈ given)
      ∧ ∀ p, c.set? (c.get p) p = some c ↔ Accepts p (c.get p) := by
  obtain ⟨c₀, hvalid, rfl⟩ := h.exists_valid
  have hothers : ∀ p, p ≠ .allowedPackages →
      Accepts p ((c₀.withAllowedPackages given).get p) := by
    intro p hp
    rw [get_withAllowedPackages c₀ given hp]
    exact hvalid p
  have hempty : [] ∈ (c₀.withAllowedPackages given).allowedPackages ↔ [] ∈ given :=
    mem_foldl_addName.trans (or_iff_right (accepts_allowedPackages_iff.1 (hvalid .allowedPackages)))
  have hpackages : Accepts .allowedPackages ((c₀.withAllowedPackages given).get .allowedPackages)
      ↔ [] ∉ given := accepts_allowedPackages_iff.trans (not_congr hempty)
  refine ⟨hothers, hpackages, ?_, ?_, ?_, ?_, hempty, fun p => set?_get_iff⟩
  · constructor
    · exact fun hall => hpackages.1 (hall .allowedPackages)
    · intro hgiven p
      by_cases hp : p = .allowedPackages
      · rw [hp]
        exact hpackages.2 hgiven
      · exact hothers p hp
  · exact accepts_builtinModules_iff.1 (hothers .builtinModules nofun)
  · exact accepts_maxFiles_iff.1 (hothers .maxFiles nofun)
  · exact accepts_maxFileSizeKb_iff.1 (hothers .maxFileSizeKb nofun)

/-- The defaults, with a package, and with one that has no name. -/
theorem isReached_emptyName (loader : Loader) :
    IsReached loader (standard.withAllowedPackages [['q'], []]) [['q'], []] := by
  have hdefaults : ofValue? (.mapping []) = some (.ok (standard, [])) := rfl
  exact .added (.ofValue hdefaults) [['q'], []]

/-- Only the list of packages does not pass. -/
theorem emptyName_accepts :
    IsReached Yaml.loader (standard.withAllowedPackages [['q'], []]) [['q'], []]
      ∧ (∀ p, p ≠ .allowedPackages →
        Accepts p ((standard.withAllowedPackages [['q'], []]).get p))
      ∧ ¬(standard.withAllowedPackages [['q'], []]).IsValid := by
  obtain ⟨hothers, -, hvalid, -⟩ := reached_accepts (isReached_emptyName Yaml.loader)
  refine ⟨isReached_emptyName Yaml.loader, hothers, ?_⟩
  rw [hvalid, not_not]
  decide

/-- Not every configuration that can be reached passes its check, whatever the loader: a name that
is added is not checked. -/
theorem emptyName_not_valid :
    ¬∃ loader : Loader, ∀ c given, IsReached loader c given → c.IsValid := by
  rintro ⟨loader, hall⟩
  have hpackages := hall _ _ (isReached_emptyName loader) .allowedPackages
  exact accepts_allowedPackages_iff.1 hpackages (by decide)

end Config

end ImportClosure
