import ImportClosure.Proofs.Examination
import ImportClosure.Proofs.OrderedMap
/-!
The findings about a list of files.

A run looks at files one after another and records what it finds out about each. The order of
the files and what each of them contributes settle the findings, since a file is looked at once:
a later file never touches the entry of an earlier one, except that it may be one more file that
refers to a path already known to be missing. `ledger` is the record of a list of files, and the
laws below say what each of its three maps holds.
-/

namespace ImportClosure.Resolution

variable {s : Settings} {r : Reader}

/-! ## One file -/

/-- Adds a file to those that refer to a missing path. -/
def refer (referrer : Text) (missing : OrderedMap Text (List Text)) (path : Text) :
    OrderedMap Text (List Text) :=
  missing.insert path (appendNew ((missing.get? path).getD []) [referrer])

theorem get?_refer (referrer path path' : Text) (missing : OrderedMap Text (List Text)) :
    (refer referrer missing path).get? path' =
      if path = path' then some (appendNew ((missing.get? path).getD []) [referrer])
      else missing.get? path' :=
  OrderedMap.get?_insert missing path path' _

theorem foldl_addMissing (referrer : Text) (paths : List Text) (c : Collector) :
    paths.foldl (fun c path => c.addMissing path (some referrer)) c
      = { c with missing := paths.foldl (refer referrer) c.missing } := by
  induction paths generalizing c with
  | nil => rfl
  | cons path paths ih =>
    rw [List.foldl_cons, List.foldl_cons, ih]
    rfl

/-- The packages recorded for a file. -/
theorem addUnsupported_of_ne_nil {c : Collector} {path : Text} {names : List Text}
    (hne : names ≠ []) (hnames : names.Nodup) (hpath : path ∉ c.unsupported.keys) :
    c.addUnsupported path names
      = { c with unsupported := c.unsupported.insert path names } := by
  have hnew : appendNew ((c.unsupported.get? path).getD []) names = names := by
    rw [OrderedMap.get?_eq_none_iff.2 hpath, Option.getD_none,
      appendNew_eq_eraseDups List.nodup_nil, List.nil_append, eraseDups_of_nodup hnames]
  unfold Collector.addUnsupported
  rw [hnew]
  split
  · exact absurd rfl hne
  · rfl

/-- Recording a file changes the three maps of faults, each by what belongs to it. -/
theorem record_eq {path : Text} {x : Examination} {c : Collector}
    (hnames : x.unsupported.Nodup) (hpath : path ∉ c.unsupported.keys) :
    record path x c =
      { c with
        unparsed := match x.fault with
          | some reason => c.unparsed.insert path reason
          | none => c.unparsed
        unsupported :=
          if x.unsupported = [] then c.unsupported else c.unsupported.insert path x.unsupported
        missing := x.missing.foldl (refer path) c.missing } := by
  unfold record
  rw [foldl_addMissing]
  by_cases hne : x.unsupported = []
  · rw [if_pos hne, if_pos hne]
    cases x.fault <;> rfl
  · rw [if_neg hne, if_neg hne]
    cases x.fault with
    | none =>
      dsimp only
      rw [addUnsupported_of_ne_nil hne hnames hpath]
    | some reason =>
      dsimp only
      rw [addUnsupported_of_ne_nil (c := c.addUnparsed path reason) hne hnames hpath]
      rfl

theorem addUnsupported_with_files (c : Collector) (path : Text) (names : List Text)
    (files : OrderedMap Text Text) :
    ({ c with files } : Collector).addUnsupported path names
      = { c.addUnsupported path names with files } := by
  unfold Collector.addUnsupported
  dsimp only
  split <;> rfl

theorem addUnsupported_entrypoint (c : Collector) (path : Text) (names : List Text) :
    (c.addUnsupported path names).entrypoint = c.entrypoint := by
  unfold Collector.addUnsupported
  split <;> rfl

/-- Recording a file leaves the files visited alone, and does not depend on them. -/
theorem record_with_files (path : Text) (x : Examination) (c : Collector)
    (files : OrderedMap Text Text) :
    record path x { c with files } = { record path x c with files } := by
  unfold record
  rw [foldl_addMissing, foldl_addMissing]
  by_cases hne : x.unsupported = []
  · rw [if_pos hne, if_pos hne]
    cases x.fault <;> rfl
  · rw [if_neg hne, if_neg hne]
    cases x.fault with
    | none =>
      dsimp only
      rw [addUnsupported_with_files]
    | some reason =>
      have h := addUnsupported_with_files (c.addUnparsed path reason) path x.unsupported files
      exact congrArg (fun c : Collector =>
        { c with missing := x.missing.foldl (refer path) c.missing }) h

theorem record_files (path : Text) (x : Examination) (c : Collector) :
    (record path x c).files = c.files := by
  have h := record_with_files path x c c.files
  rw [h]

theorem record_entrypoint (path : Text) (x : Examination) (c : Collector) :
    (record path x c).entrypoint = c.entrypoint := by
  unfold record
  rw [foldl_addMissing]
  by_cases hne : x.unsupported = []
  · rw [if_pos hne]
    cases x.fault <;> rfl
  · rw [if_neg hne]
    dsimp only
    rw [addUnsupported_entrypoint]
    cases x.fault <;> rfl

/-- A path referred to gets the file as its last referrer, once. -/
theorem get?_foldl_refer {referrer : Text} {paths : List Text}
    {missing : OrderedMap Text (List Text)} (path : Text)
    (hnew : ∀ refs, missing.get? path = some refs → referrer ∉ refs) :
    (paths.foldl (refer referrer) missing).get? path =
      if path ∈ paths then some ((missing.get? path).getD [] ++ [referrer])
      else missing.get? path := by
  induction paths using List.reverseRecOn with
  | nil => rfl
  | append_singleton paths p ih =>
    rw [List.foldl_append, List.foldl_cons, List.foldl_nil, get?_refer]
    by_cases hp : p = path
    · subst hp
      -- two candidates of one file may be the same path; the second mention adds nothing
      rw [if_pos rfl, if_pos (by simp), ih]
      by_cases hmem : p ∈ paths
      · rw [if_pos hmem]
        simp [appendNew]
      · rw [if_neg hmem]
        cases hget : missing.get? p with
        | none => simp [appendNew]
        | some refs => simp [appendNew, hnew refs hget]
    · rw [if_neg hp, ih]
      simp [Ne.symm hp]

/-! ## A list of files -/

/-- The findings with what these files contribute, the files found apart. -/
def ledger (s : Settings) (r : Reader) (c : Collector) (files : List SourceFile) : Collector :=
  files.foldl (fun c f => record f.path (examined s r f) c) c

theorem ledger_append_singleton (c : Collector) (files : List SourceFile) (f : SourceFile) :
    ledger s r c (files ++ [f]) = record f.path (examined s r f) (ledger s r c files) := by
  unfold ledger
  rw [List.foldl_append]
  rfl

theorem ledger_entrypoint (c : Collector) (files : List SourceFile) :
    (ledger s r c files).entrypoint = c.entrypoint := by
  induction files using List.reverseRecOn with
  | nil => rfl
  | append_singleton files f ih => rw [ledger_append_singleton, record_entrypoint, ih]

/-- What a list of files contributes, starting from no findings. -/
structure Accounts (s : Settings) (r : Reader) (files : List SourceFile) (c : Collector) :
    Prop where
  /-- The refused files with their reasons. -/
  unparsed : c.unparsed.entries
    = files.filterMap fun f => (examined s r f).fault.map fun reason => (f.path, reason)
  /-- The files that lack packages, with these packages. -/
  unsupported : c.unsupported.entries
    = (files.filter fun f => (examined s r f).unsupported ≠ []).map
        fun f => (f.path, (examined s r f).unsupported)
  /-- The missing paths with the files that refer to them. -/
  missing : ∀ path, c.missing.get? path =
    if path ∈ files.flatMap (fun f => (examined s r f).missing) then
      some ((files.filter fun f => path ∈ (examined s r f).missing).map SourceFile.path)
    else none

theorem accounts_start (entry content : Text) :
    Accounts s r [] (Collector.start entry content) :=
  ⟨rfl, rfl, fun _ => rfl⟩

namespace Accounts

variable {files : List SourceFile} {c : Collector} {f : SourceFile}

theorem path_mem_of_mem_unparsed (h : Accounts s r files c) {path : Text}
    (hp : path ∈ c.unparsed.keys) : path ∈ files.map SourceFile.path := by
  unfold OrderedMap.keys at hp
  rw [h.unparsed] at hp
  obtain ⟨entry, hentry, rfl⟩ := List.mem_map.1 hp
  obtain ⟨g, hg, heq⟩ := List.mem_filterMap.1 hentry
  obtain ⟨reason, _, rfl⟩ := Option.map_eq_some_iff.1 heq
  exact List.mem_map.2 ⟨g, hg, rfl⟩

theorem path_mem_of_mem_unsupported (h : Accounts s r files c) {path : Text}
    (hp : path ∈ c.unsupported.keys) : path ∈ files.map SourceFile.path := by
  unfold OrderedMap.keys at hp
  rw [h.unsupported, List.map_map] at hp
  obtain ⟨g, hg, rfl⟩ := List.mem_map.1 hp
  exact List.mem_map.2 ⟨g, (List.mem_filter.1 hg).1, rfl⟩

theorem referrer_mem (h : Accounts s r files c) {path : Text} {refs : List Text}
    (hr : c.missing.get? path = some refs) : ∀ p ∈ refs, p ∈ files.map SourceFile.path := by
  intro p hp
  rw [h.missing path] at hr
  split at hr
  · rw [← Option.some.inj hr] at hp
    obtain ⟨g, hg, rfl⟩ := List.mem_map.1 hp
    exact List.mem_map.2 ⟨g, (List.mem_filter.1 hg).1, rfl⟩
  · exact absurd hr nofun

/-- A path is missing if a file refers to it in vain. -/
theorem missing_eq_nil_iff (h : Accounts s r files c) :
    c.missing.entries = [] ↔ ∀ f ∈ files, (examined s r f).missing = [] := by
  rw [OrderedMap.entries_eq_nil_iff]
  constructor
  · intro hnone f hf
    rw [List.eq_nil_iff_forall_not_mem]
    intro path hp
    have hget := h.missing path
    rw [hnone path, if_pos (List.mem_flatMap.2 ⟨f, hf, hp⟩)] at hget
    exact absurd hget nofun
  · intro hnil path
    rw [h.missing path, if_neg]
    intro hp
    obtain ⟨f, hf, hm⟩ := List.mem_flatMap.1 hp
    rw [hnil f hf] at hm
    exact List.not_mem_nil hm

/-- There are no faults if there is nothing to report about any of the files. -/
theorem hasFaults_eq_false_iff (h : Accounts s r files c) :
    c.hasFaults = false ↔ ∀ f ∈ files, (examined s r f).fault = none
      ∧ (examined s r f).unsupported = [] ∧ (examined s r f).missing = [] := by
  have hunparsed : c.unparsed.entries = [] ↔ ∀ f ∈ files, (examined s r f).fault = none := by
    rw [h.unparsed, List.filterMap_eq_nil_iff]
    exact forall₂_congr fun _ _ => Option.map_eq_none_iff
  have hunsupported :
      c.unsupported.entries = [] ↔ ∀ f ∈ files, (examined s r f).unsupported = [] := by
    rw [h.unsupported, List.map_eq_nil_iff, List.filter_eq_nil_iff]
    exact forall₂_congr fun _ _ => by simp
  unfold Collector.hasFaults
  rw [Bool.not_eq_false', Bool.and_eq_true, Bool.and_eq_true, OrderedMap.isEmpty_iff,
    OrderedMap.isEmpty_iff, OrderedMap.isEmpty_iff, h.missing_eq_nil_iff, hunparsed,
    hunsupported]
  constructor
  · rintro ⟨⟨hm, hp⟩, hu⟩ f hf
    exact ⟨hp f hf, hu f hf, hm f hf⟩
  · intro hall
    exact ⟨⟨fun f hf => (hall f hf).2.2, fun f hf => (hall f hf).1⟩,
      fun f hf => (hall f hf).2.1⟩

/-- One more file adds what it contributes at the end. -/
theorem record (h : Accounts s r files c) (hf : f.path ∉ files.map SourceFile.path) :
    Accounts s r (files ++ [f]) (record f.path (examined s r f) c) := by
  have hunparsed : f.path ∉ c.unparsed.keys := fun hp => hf (h.path_mem_of_mem_unparsed hp)
  have hunsupported : f.path ∉ c.unsupported.keys :=
    fun hp => hf (h.path_mem_of_mem_unsupported hp)
  -- the file is new to all three maps, so each insertion is at the end
  rw [record_eq (ascending_unsupported s r f).nodup hunsupported]
  refine ⟨?_, ?_, ?_⟩
  · rw [List.filterMap_append, ← h.unparsed]
    cases hfault : (examined s r f).fault with
    | none => simp [hfault]
    | some reason =>
      dsimp only
      rw [OrderedMap.entries_insert_of_not_mem hunparsed]
      simp [hfault]
  · rw [List.filter_append, List.map_append, ← h.unsupported]
    by_cases hne : (examined s r f).unsupported = []
    · simp [hne]
    · dsimp only
      rw [if_neg hne, OrderedMap.entries_insert_of_not_mem hunsupported]
      simp [hne]
  · intro path
    have hnew : ∀ refs, c.missing.get? path = some refs → f.path ∉ refs :=
      fun refs hr hp => hf (h.referrer_mem hr _ hp)
    dsimp only
    rw [get?_foldl_refer path hnew, h.missing path, List.flatMap_append, List.filter_append,
      List.map_append]
    by_cases hm : path ∈ (examined s r f).missing
    · -- a path that was not missing before has had no referrers
      by_cases hk : path ∈ files.flatMap fun f => (examined s r f).missing
      · simp [hm, hk]
      · have hnone : files.filter (fun f => path ∈ (examined s r f).missing) = [] := by
          rw [List.filter_eq_nil_iff]
          intro g hg hp
          exact hk (List.mem_flatMap.2 ⟨g, hg, by simpa using hp⟩)
        simp [hm, hk, hnone]
    · simp [hm]

/-- The record of files with different paths. -/
theorem ledger {c₀ : Collector} (h : Accounts s r [] c₀)
    (hn : (files.map SourceFile.path).Nodup) : Accounts s r files (ledger s r c₀ files) := by
  induction files using List.reverseRecOn with
  | nil => exact h
  | append_singleton files f ih =>
    rw [List.map_append, List.nodup_append] at hn
    rw [ledger_append_singleton]
    refine (ih hn.1).record ?_
    intro hf
    exact hn.2.2 _ hf f.path (by simp) rfl

end Accounts

end ImportClosure.Resolution
