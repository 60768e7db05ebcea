import ImportClosure.Configuration.File
import ImportClosure.Proofs.MappingKeys
import ImportClosure.Yaml.Load
import Mathlib.Data.List.Basic
/-!
Merging a configuration.

The entries of a mapping are taken one after the other, and what comes out depends on each
parameter alone: it has the value that was given if it accepts that value, and its default otherwise
(`Settles`). Every other entry is reported, in the order of the mapping (`Reports`). A report shows
the key or the value; merging breaks off at the first one that cannot be written out (`outcome`).

No text is a key twice in a mapping. Whatever the loader makes of a file, a file merges like the
mapping that it holds, and what is no mapping leaves the defaults (`merge_perParameter`).
-/

namespace ImportClosure

/-! ## What a parameter accepts -/

namespace Value

variable {v : Value} {items : List Value} {t : Text} {names : List Text} {least i : Int}

theorem name?_eq_some_iff : v.name? = some t ↔ v = .text t ∧ t ≠ [] := by
  cases v with
  | text u =>
    rw [name?]
    by_cases hu : u = []
    · rw [if_pos hu]
      refine iff_of_false nofun ?_
      rintro ⟨⟨⟩, ht⟩
      exact ht hu
    · rw [if_neg hu, Option.some_inj, Value.text.injEq]
      constructor
      · rintro rfl
        exact ⟨rfl, hu⟩
      · exact fun h => h.1
  | _ => simp [name?]

theorem mapM_name?_eq_some_iff :
    items.mapM name? = some names ↔ items = names.map text ∧ [] ∉ names := by
  induction items generalizing names with
  | nil =>
    cases names with
    | nil => simp
    | cons t names => simp
  | cons v items ih =>
    rw [List.mapM_cons]
    simp only [Option.bind_eq_bind, Option.bind_eq_some_iff, Option.pure_def, Option.some_inj,
      name?_eq_some_iff, ih]
    constructor
    · rintro ⟨t, ⟨rfl, ht⟩, names, ⟨rfl, hnames⟩, rfl⟩
      refine ⟨rfl, ?_⟩
      rw [List.mem_cons, not_or]
      exact ⟨Ne.symm ht, hnames⟩
    · rintro ⟨heq, hmem⟩
      cases names with
      | nil => cases heq
      | cons t names =>
        rw [List.mem_cons, not_or] at hmem
        rw [List.map_cons, List.cons.injEq] at heq
        exact ⟨t, ⟨heq.1, Ne.symm hmem.1⟩, names, ⟨heq.2, hmem.2⟩, rfl⟩

theorem ofTexts_injective : Function.Injective ofTexts := by
  intro xs ys h
  have hinj : Function.Injective Value.text := fun _ _ => Value.text.inj
  exact List.map_injective_iff.2 hinj (Value.list.inj h)

theorem names?_eq_some_iff : v.names? = some names ↔ v = .ofTexts names ∧ [] ∉ names := by
  unfold ofTexts
  cases v with
  | list items => rw [names?, mapM_name?_eq_some_iff, Value.list.injEq]
  | _ => simp [names?]

theorem atLeast?_eq_some_iff : v.atLeast? least = some i ↔ v = .int i ∧ least ≤ i := by
  cases v with
  | int j =>
    rw [atLeast?]
    by_cases hj : least ≤ j
    · rw [if_pos hj, Option.some_inj, Value.int.injEq]
      constructor
      · rintro rfl
        exact ⟨rfl, hj⟩
      · exact fun h => h.1
    · rw [if_neg hj]
      refine iff_of_false nofun ?_
      rintro ⟨⟨⟩, hi⟩
      exact hj hi
  | _ => simp [atLeast?]

end Value

namespace Parameter

variable {key : Value} {p q : Parameter}

theorem name_injective : Function.Injective name := by
  intro p q h
  cases p <;> cases q <;> first | rfl | exact absurd h (by decide)

theorem ofKey?_name (p : Parameter) : ofKey? (.text p.name) = some p := by
  cases p <;> rfl

theorem ofKey?_eq_some_iff : ofKey? key = some p ↔ key = .text p.name := by
  constructor
  · intro h
    cases key with
    | text t =>
      have hname := List.find?_some h
      rw [of_decide_eq_true hname]
    | _ => cases h
  · rintro rfl
    exact ofKey?_name p

theorem ofKey?_eq_none_iff : ofKey? key = none ↔ ∀ p : Parameter, key ≠ .text p.name := by
  rw [Option.eq_none_iff_forall_ne_some]
  exact forall_congr' fun p => not_congr ofKey?_eq_some_iff

end Parameter

namespace Config

variable {c c' c'' : Config} {p q : Parameter} {v : Value}

/-- What a parameter accepts: a list of texts that are not empty, or a whole number of any size that
is not negative, for the size of a file not zero either. -/
def Accepts (p : Parameter) (v : Value) : Prop :=
  match p with
  | .builtinModules | .allowedPackages => ∃ names : List Text, v = .ofTexts names ∧ [] ∉ names
  | .maxFiles => ∃ i, v = .int i ∧ 0 ≤ i
  | .maxFileSizeKb => ∃ i, v = .int i ∧ 0 < i

/-- A configuration is told by the values of its parameters. -/
theorem ext_get (h : ∀ p, c.get p = c'.get p) : c = c' := by
  have hbuiltin := Value.ofTexts_injective (h .builtinModules)
  have hallowed := Value.ofTexts_injective (h .allowedPackages)
  have hfiles := Value.int.inj (h .maxFiles)
  have hsize := Value.int.inj (h .maxFileSizeKb)
  cases c
  cases c'
  simp_all

/-- A parameter takes exactly the values that it accepts. -/
theorem exists_set?_iff : (∃ c', c.set? v p = some c') ↔ Accepts p v := by
  cases p with
  | builtinModules | allowedPackages =>
    simp only [set?, Accepts, Option.map_eq_some_iff, Value.names?_eq_some_iff]
    constructor
    · rintro ⟨_, names, h, -⟩
      exact ⟨names, h⟩
    · rintro ⟨names, h⟩
      exact ⟨_, names, h, rfl⟩
  | maxFiles | maxFileSizeKb =>
    simp only [set?, Accepts, Option.map_eq_some_iff, Value.atLeast?_eq_some_iff]
    constructor
    · rintro ⟨_, i, h, -⟩
      exact ⟨i, h⟩
    · rintro ⟨i, h⟩
      exact ⟨_, i, h, rfl⟩

/-- What one parameter takes changes no other. -/
theorem get_of_set? (h : c.set? v p = some c') :
    c'.get p = v ∧ ∀ q, q ≠ p → c'.get q = c.get q := by
  cases p with
  | builtinModules | allowedPackages =>
    obtain ⟨names, hnames, rfl⟩ := Option.map_eq_some_iff.1 h
    refine ⟨(Value.names?_eq_some_iff.1 hnames).1.symm, ?_⟩
    intro q hq
    cases q <;> first | rfl | exact absurd rfl hq
  | maxFiles | maxFileSizeKb =>
    obtain ⟨i, hi, rfl⟩ := Option.map_eq_some_iff.1 h
    refine ⟨(Value.atLeast?_eq_some_iff.1 hi).1.symm, ?_⟩
    intro q hq
    cases q <;> first | rfl | exact absurd rfl hq

/-! ## What is reported -/

/-- What is shown and said of an entry that has no effect: its key is no parameter's, or its value is
not accepted. -/
inductive Complaint : Value × Value → Value × Text → Prop
  | unknown {k v : Value} (h : ∀ p : Parameter, k ≠ .text p.name) :
    Complaint (k, v) (k, unknownKey k)
  | invalid {p : Parameter} {v : Value} (h : ¬Accepts p v) :
    Complaint (.text p.name, v) (v, invalidValue p v)

/-- These are the complaints about entries, one for each that has no effect, in their order. -/
inductive Reports : List (Value × Value) → List (Value × Text) → Prop
  | nil : Reports [] []
  | accepted {p : Parameter} {v : Value} {es complaints} (h : Accepts p v)
    (hes : Reports es complaints) : Reports ((.text p.name, v) :: es) complaints
  | complaint {e x es complaints} (h : Complaint e x) (hes : Reports es complaints) :
    Reports (e :: es) (x :: complaints)

/-- The configuration after entries: a parameter has the value that was given if it accepts it, and
what it had before otherwise. -/
structure Settles (c : Config) (entries : List (Value × Value)) (c' : Config) : Prop where
  given : ∀ p v, (.text p.name, v) ∈ entries → Accepts p v → c'.get p = v
  kept : ∀ p, (∀ v, (.text p.name, v) ∈ entries → ¬Accepts p v) → c'.get p = c.get p

/-- What comes of a configuration and the complaints: these are written, up to the first one that
shows what cannot be written out. -/
def outcome (c : Config) (log : List LogRecord) (complaints : List (Value × Text)) :
    Except Unwritable (Config × List LogRecord) :=
  if complaints.all fun x => x.1.isWritable then
    .ok (c, log ++ complaints.map fun x => warning x.2)
  else
    .error ⟨log ++ (complaints.takeWhile fun x => x.1.isWritable).map fun x => warning x.2⟩

theorem Complaint.not_accepts {x : Value × Text} (h : Complaint (.text p.name, v) x) :
    ¬Accepts p v := by
  generalize hk : Value.text p.name = k at h
  cases h with
  | unknown h => exact absurd hk.symm (h p)
  | invalid h =>
    rw [Parameter.name_injective (Value.text.inj hk)]
    exact h

/-! ## One entry -/

variable {log : List LogRecord} {e : Value × Value} {entries es : List (Value × Value)}
  {x : Value × Text} {complaints : List (Value × Text)}

/-- An entry gives its parameter a value that it accepts, or it is reported. -/
theorem mergeEntry_cases (c : Config) (log : List LogRecord) (e : Value × Value) :
    (∃ p v c', e = (.text p.name, v) ∧ Accepts p v ∧ c.set? v p = some c'
      ∧ c.mergeEntry log e = .ok (c', log))
    ∨ ∃ x, Complaint e x
      ∧ c.mergeEntry log e = (report log x.1 x.2).map fun log => (c, log) := by
  obtain ⟨k, v⟩ := e
  unfold mergeEntry
  dsimp only
  cases hkey : Parameter.ofKey? k with
  | none => exact Or.inr ⟨_, .unknown (Parameter.ofKey?_eq_none_iff.1 hkey), rfl⟩
  | some p =>
    obtain rfl := Parameter.ofKey?_eq_some_iff.1 hkey
    dsimp only
    cases hset : c.set? v p with
    | none =>
      have hv : ¬Accepts p v := by
        rw [← exists_set?_iff (c := c), hset]
        exact nofun
      exact Or.inr ⟨_, .invalid hv, rfl⟩
    | some c' => exact Or.inl ⟨p, v, c', rfl, exists_set?_iff.1 ⟨c', hset⟩, hset, rfl⟩

/-! ## All entries -/

theorem Settles.cons_accepted (hset : c.set? v p = some c') (hfresh : ∀ w, (.text p.name, w) ∉ es)
    (h : Settles c' es c'') : Settles c ((.text p.name, v) :: es) c'' := by
  obtain ⟨hp, hother⟩ := get_of_set? hset
  constructor
  · intro q w hmem hw
    rcases List.mem_cons.1 hmem with heq | hmem
    · obtain ⟨hname, rfl⟩ := Prod.mk.inj heq
      obtain rfl := Parameter.name_injective (Value.text.inj hname)
      rw [h.kept q fun w hw => absurd hw (hfresh w), hp]
    · exact h.given q w hmem hw
  · intro q hq
    have hne : q ≠ p := by
      rintro rfl
      exact hq v List.mem_cons_self (exists_set?_iff.1 ⟨c', hset⟩)
    rw [h.kept q fun w hw => hq w (List.mem_cons_of_mem _ hw), hother q hne]

theorem Settles.cons_complaint (hx : Complaint e x) (h : Settles c es c') :
    Settles c (e :: es) c' := by
  constructor
  · intro q w hmem hw
    rcases List.mem_cons.1 hmem with rfl | hmem
    · exact absurd hw hx.not_accepts
    · exact h.given q w hmem hw
  · intro q hq
    exact h.kept q fun w hw => hq w (List.mem_cons_of_mem _ hw)

/-- Merging is settled entry by entry: what was reported before stays in front. -/
theorem outcome_cons (hwritable : x.1.isWritable = true) :
    outcome c (log ++ [warning x.2]) complaints = outcome c log (x :: complaints) := by
  unfold outcome
  simp only [List.all_cons, List.takeWhile_cons, hwritable, Bool.true_and, if_true, List.map_cons,
    List.append_assoc, List.singleton_append]

theorem outcome_cons_of_not_writable (hwritable : x.1.isWritable = false) :
    outcome c log (x :: complaints) = .error ⟨log⟩ := by
  unfold outcome
  simp only [List.all_cons, List.takeWhile_cons, hwritable, Bool.false_and, Bool.false_eq_true,
    if_false, List.map_nil, List.append_nil]

/-- **Merging.** Whatever the configuration and the reports before, the entries settle each
parameter, and merging gives that configuration and the complaints about the entries. -/
theorem exists_merge_eq (hkeys : Value.KeysDiffer entries) (c : Config) (log : List LogRecord) :
    ∃ c' complaints, Settles c entries c' ∧ Reports entries complaints
      ∧ c.merge log entries = outcome c' log complaints := by
  induction entries generalizing c log with
  | nil =>
    refine ⟨c, [], ⟨nofun, fun _ _ => rfl⟩, .nil, ?_⟩
    rw [merge, outcome, List.all_nil, if_pos rfl, List.map_nil, List.append_nil]
  | cons e es ih =>
    obtain ⟨hfirst, hrest⟩ := List.pairwise_cons.1 hkeys
    rw [merge]
    rcases mergeEntry_cases c log e with ⟨p, v, c₁, rfl, hv, hset, hmerge⟩ | ⟨x, hx, hmerge⟩
    · -- the key does not come again, so that the rest keeps what the entry gave
      have hfresh : ∀ w, (.text p.name, w) ∉ es := fun w hw => hfirst _ hw p.name rfl rfl
      obtain ⟨c', complaints, hsettles, hreports, heq⟩ := ih hrest c₁ log
      refine ⟨c', complaints, .cons_accepted hset hfresh hsettles, .accepted hv hreports, ?_⟩
      rw [hmerge]
      exact heq
    · -- the rest settles the parameters in any case, also where merging does not get there
      obtain ⟨c', complaints, hsettles, hreports, heq⟩ := ih hrest c (log ++ [warning x.2])
      refine ⟨c', x :: complaints, .cons_complaint hx hsettles, .complaint hx hreports, ?_⟩
      rw [hmerge, report]
      cases hwritable : x.1.isWritable with
      | false => exact (outcome_cons_of_not_writable hwritable).symm
      | true => exact heq.trans (outcome_cons hwritable)

/-- A parameter depends on the entries with its own key alone. -/
theorem Settles.get_congr {entries' : List (Value × Value)} (h : Settles c entries c')
    (h' : Settles c entries' c'')
    (hsame : ∀ v, (.text p.name, v) ∈ entries ↔ (.text p.name, v) ∈ entries') :
    c'.get p = c''.get p := by
  by_cases hgiven : ∃ v, (.text p.name, v) ∈ entries ∧ Accepts p v
  · obtain ⟨v, hmem, hv⟩ := hgiven
    rw [h.given p v hmem hv, h'.given p v ((hsame v).1 hmem) hv]
  · have hnone : ∀ v, (.text p.name, v) ∈ entries → ¬Accepts p v :=
      fun v hmem hv => hgiven ⟨v, hmem, hv⟩
    rw [h.kept p hnone, h'.kept p fun v hmem => hnone v ((hsame v).2 hmem)]

/-! ## Files -/

variable {loader : Loader} {d : Disk} {path t : Text} {content : Bytes}

theorem ofFile_eq_ofText (hfind : d.find path = .ok (.file content))
    (hdecode : decode content = .ok t) : ofFile loader d path = ofText loader path t := by
  unfold ofFile
  rw [hfind]
  dsimp only
  rw [hdecode]

theorem ofText_of_mapping (h : loader.load path t = .ok (.mapping entries)) :
    ofText loader path t = (standard.merge [] entries).mapError .unwritable := by
  unfold ofText
  rw [h]
  dsimp only [ofValue?]
  cases standard.merge [] entries with
  | error why => rfl
  | ok result => rfl

theorem ofValue?_eq_none (h : ∀ entries, v ≠ .mapping entries) : ofValue? v = none := by
  cases v with
  | mapping entries => exact absurd rfl (h entries)
  | _ => rfl

/-- A value that is no mapping is reported, and the defaults are used. -/
theorem ofText_of_ne_mapping (hload : loader.load path t = .ok v)
    (h : ∀ entries, v ≠ .mapping entries) :
    ∃ message, ofText loader path t = .ok (standard, [warning message]) := by
  unfold ofText
  rw [hload]
  cases v with
  | mapping entries => exact absurd rfl (h entries)
  | null => exact ⟨_, rfl⟩
  | _ => exact ⟨_, rfl⟩

/-- What is merged without breaking off is the configuration that the entries settle. -/
theorem settles_of_ofValue? (hkeys : Value.KeysDiffer entries)
    (h : ofValue? (.mapping entries) = some (.ok (c, log))) : Settles standard entries c := by
  obtain ⟨c', complaints, hsettles, -, hmerge⟩ := exists_merge_eq hkeys standard []
  rw [ofValue?, hmerge, Option.some_inj] at h
  unfold outcome at h
  split_ifs at h
  obtain ⟨rfl, -⟩ := Prod.mk.inj (Except.ok.inj h)
  exact hsettles

/-- Merging goes through exactly if every complaint can be written out. -/
theorem outcome_eq_ok_iff : outcome c [] complaints = .ok (c, complaints.map fun x => warning x.2)
    ↔ ∀ x ∈ complaints, x.1.isWritable = true := by
  unfold outcome
  rw [List.nil_append, ← List.all_eq_true]
  cases complaints.all fun x => x.1.isWritable with
  | false => exact iff_of_false nofun Bool.false_ne_true
  | true => exact iff_of_true rfl rfl

/-- **Parameters apart.** The entries of a mapping settle each parameter: it has the value that it
was given if it accepts that value, and its default otherwise, whatever the other entries are and in
which order they stand. Each entry that has no effect is reported, in order, and merging goes through
exactly if no report would show what cannot be written out. A file that is loaded to the mapping, by
whatever loader, gives the same. What is no mapping gives nothing, and from a file the defaults. -/
theorem merge_perParameter (hkeys : Value.KeysDiffer entries) :
    (∃ c complaints, Settles standard entries c ∧ Reports entries complaints
      ∧ ofValue? (.mapping entries) = some (outcome c [] complaints)
      ∧ (outcome c [] complaints = .ok (c, complaints.map fun x => warning x.2)
        ↔ ∀ x ∈ complaints, x.1.isWritable = true)
      ∧ (∀ entries' c' log' p, Value.KeysDiffer entries' →
        ofValue? (.mapping entries') = some (.ok (c', log')) →
        (∀ v, (.text p.name, v) ∈ entries ↔ (.text p.name, v) ∈ entries') →
        c.get p = c'.get p)
      ∧ (∀ entries', entries'.Perm entries → ∃ complaints', Reports entries' complaints'
        ∧ ofValue? (.mapping entries') = some (outcome c [] complaints'))
      ∧ ∀ (loader : Loader) (d : Disk) path content t, d.find path = .ok (.file content) →
        decode content = .ok t → loader.load path t = .ok (.mapping entries) →
        ofFile loader d path = (outcome c [] complaints).mapError .unwritable)
    ∧ ∀ v, (∀ entries, v ≠ .mapping entries) → ofValue? v = none
      ∧ ∀ (loader : Loader) (d : Disk) path content t, d.find path = .ok (.file content) →
        decode content = .ok t → loader.load path t = .ok v →
        ∃ message, ofFile loader d path = .ok (standard, [warning message]) := by
  refine ⟨?_, ?_⟩
  · obtain ⟨c, complaints, hsettles, hreports, hmerge⟩ := exists_merge_eq hkeys standard []
    refine ⟨c, complaints, hsettles, hreports, congrArg some hmerge, outcome_eq_ok_iff, ?_, ?_, ?_⟩
    · intro entries' c' log' p hkeys' h hsame
      exact hsettles.get_congr (settles_of_ofValue? hkeys' h) hsame
    · intro entries' hperm
      obtain ⟨c', complaints', hsettles', hreports', hmerge'⟩ :=
        exists_merge_eq (hkeys.perm hperm) standard []
      have hc : c' = c := ext_get fun p => hsettles'.get_congr hsettles fun _ => hperm.mem_iff
      rw [hc] at hmerge'
      exact ⟨complaints', hreports', congrArg some hmerge'⟩
    · intro loader d path content t hfind hdecode hload
      rw [ofFile_eq_ofText hfind hdecode, ofText_of_mapping hload, hmerge]
  · intro v hv
    refine ⟨ofValue?_eq_none hv, ?_⟩
    intro loader d path content t hfind hdecode hload
    rw [ofFile_eq_ofText hfind hdecode]
    exact ofText_of_ne_mapping hload hv

/-- A size that is not accepted, a key that is no parameter's, and a name that is. -/
def mixedEntries : List (Value × Value) :=
  [(.text Parameter.maxFileSizeKb.name, .int 0), (.text "colour", .text "blue"),
    (.text Parameter.allowedPackages.name, .ofTexts [Text.ofString "left-pad"])]

theorem keysDiffer_mixedEntries : Value.KeysDiffer mixedEntries := by
  have hcolour : Parameter.maxFileSizeKb.name ≠ Text.ofString "colour" := by decide
  have hsize : Parameter.maxFileSizeKb.name ≠ Parameter.allowedPackages.name := by decide
  have hname : Text.ofString "colour" ≠ Parameter.allowedPackages.name := by decide
  simp [Value.KeysDiffer, mixedEntries, hcolour.symm, hsize.symm, hname.symm]

/-- A working directory in which the file of the configuration has this content. -/
def diskConfiguredBy (content : Bytes) : Disk where
  working := [['w']]
  entries := .ofList [([['w']], .directory), ([['w'], fileName], .file content)]

theorem find_emptyFile :
    (diskConfiguredBy []).find ((diskConfiguredBy []).absolutePath fileName) = .ok (.file []) := by
  decide +kernel

theorem mixedEntries_merged :
    Value.KeysDiffer mixedEntries ∧ ∃ c complaints, Reports mixedEntries complaints
      ∧ ofValue? (.mapping mixedEntries) = some (outcome c [] complaints)
      ∧ c.get .allowedPackages = .ofTexts [Text.ofString "left-pad"]
      ∧ c.get .builtinModules = standard.get .builtinModules
      ∧ ofValue? .null = none
      ∧ ∃ message, ofFile Yaml.loader (diskConfiguredBy [])
          ((diskConfiguredBy []).absolutePath fileName) = .ok (standard, [warning message]) := by
  obtain ⟨⟨c, complaints, hsettles, hreports, hmerge, -⟩, hother⟩ :=
    merge_perParameter keysDiffer_mixedEntries
  obtain ⟨hnull, hfile⟩ := hother .null nofun
  refine ⟨keysDiffer_mixedEntries, c, complaints, hreports, hmerge, ?_, ?_, hnull,
    hfile Yaml.loader _ _ [] [] find_emptyFile rfl rfl⟩
  · exact hsettles.given .allowedPackages _ (by simp [mixedEntries]) ⟨_, rfl, by decide⟩
  · apply hsettles.kept
    intro v hmem
    have hsize : Parameter.builtinModules.name ≠ Parameter.maxFileSizeKb.name := by decide
    have hcolour : Parameter.builtinModules.name ≠ Text.ofString "colour" := by decide
    have hallowed : Parameter.builtinModules.name ≠ Parameter.allowedPackages.name := by decide
    simp [mixedEntries, hsize, hcolour, hallowed] at hmem

/-- A size that is not accepted, of one digit more than can be written. -/
def tooLong : Value := .int (-(Nat.pow 10 Value.mostDigits : Nat))

theorem isWritable_tooLong : tooLong.isWritable = false := by
  rw [tooLong, Value.isWritable, Int.natAbs_neg, Int.natAbs_natCast, decide_eq_false_iff_not]
  exact Nat.lt_irrefl (Nat.pow 10 Value.mostDigits)

theorem not_accepts_tooLong : ¬Accepts .maxFileSizeKb tooLong := by
  rintro ⟨i, hi, hpos⟩
  rw [← Value.int.inj hi] at hpos
  omega

theorem mergeEntry_tooLong :
    standard.mergeEntry [] (.text Parameter.maxFileSizeKb.name, tooLong) = .error ⟨[]⟩ := by
  have hset : standard.set? tooLong .maxFileSizeKb = none := by
    rw [Option.eq_none_iff_forall_ne_some]
    exact fun c hc => not_accepts_tooLong (exists_set?_iff.1 ⟨c, hc⟩)
  rw [mergeEntry, Parameter.ofKey?_name]
  dsimp only
  rw [hset]
  dsimp only
  rw [report, isWritable_tooLong, if_neg Bool.false_ne_true]
  rfl

/-- Not every mapping is merged: a size with too many digits to be written breaks it off. -/
theorem tooLong_breaks_off :
    ¬∀ entries, Value.KeysDiffer entries → ∃ c complaints, Settles standard entries c
      ∧ Reports entries complaints
      ∧ ofValue? (.mapping entries) = some (.ok (c, complaints.map fun x => warning x.2)) := by
  intro hall
  obtain ⟨c, complaints, -, -, hmerge⟩ :=
    hall [(.text Parameter.maxFileSizeKb.name, tooLong)] (List.pairwise_singleton _ _)
  rw [ofValue?, merge, mergeEntry_tooLong] at hmerge
  cases hmerge

end Config

end ImportClosure
