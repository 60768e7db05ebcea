import ImportClosure.Proofs.MentionTables
/-!
The collector as a log of operations.

The findings of a run are made by operations of four kinds, in any order, with questions in between
that change nothing. What the findings are is told by the log of the operations alone
(`Collector.replay_records`): each of the four maps is a table of the mentions in the operations
that are about it. One operation adds one mention to one map at most (`Collector.perform_eq`), so
that what holds of a log holds of a longer one.
-/

namespace ImportClosure

namespace Collector

open OrderedMap (IsFirstOf IsLastOf IsGatheredFrom Grows)

/-! ## Operations -/

/-- Something that a collector is told or asked. -/
inductive Operation where
  /-- A file is added. -/
  | addFile (path content : Text)
  /-- A file could not be parsed. -/
  | addUnparsed (path message : Text)
  /-- A file uses packages that are not provided. -/
  | addUnsupported (path : Text) (names : List Text)
  /-- A path could not be found, and perhaps there is a file that refers to it. -/
  | addMissing (path : Text) (referrer : Option Text)
  /-- It is asked whether a file was visited. -/
  | hasFile (path : Text)
  /-- It is asked whether there are faults. -/
  | validate

namespace Operation

/-- The file that is added. -/
def file? : Operation → Option (Text × Text)
  | addFile path content => some (path, content)
  | _ => none

/-- The file that could not be parsed, with the reason. -/
def unparsed? : Operation → Option (Text × Text)
  | addUnparsed path message => some (path, message)
  | _ => none

/-- The file with the names recorded, if there are any. -/
def unsupported? : Operation → Option (Text × List Text)
  | addUnsupported path names => if names = [] then none else some (path, names)
  | _ => none

/-- The path that could not be found, with the file that refers to it if there is one. -/
def missing? : Operation → Option (Text × List Text)
  | addMissing path referrer => some (path, referrer.toList)
  | _ => none

theorem ne_nil_of_unsupported? {op : Operation} {u : Text × List Text}
    (h : op.unsupported? = some u) : u.2 ≠ [] := by
  cases op with
  | addUnsupported path names =>
    unfold unsupported? at h
    dsimp only at h
    split_ifs at h with hnames
    rw [← Option.some.inj h]
    exact hnames
  | _ => cases h

end Operation

/-- The findings after an operation. -/
def perform (c : Collector) : Operation → Collector
  | .addFile path content => c.addFile path content
  | .addUnparsed path message => c.addUnparsed path message
  | .addUnsupported path names => c.addUnsupported path names
  | .addMissing path referrer => c.addMissing path referrer
  | .hasFile _ => c
  | .validate => c

/-- The findings after a log of operations. -/
def replay (entrypoint content : Text) (log : List Operation) : Collector :=
  log.foldl perform (start entrypoint content)

/-- The findings are told by the log. -/
structure IsRecordOf (entry content : Text) (log : List Operation) (c : Collector) : Prop where
  entrypoint : c.entrypoint = entry
  files : c.files.IsFirstOf ((entry, content) :: log.filterMap Operation.file?)
  unparsed : c.unparsed.IsLastOf (log.filterMap Operation.unparsed?)
  unsupported : c.unsupported.IsGatheredFrom (log.filterMap Operation.unsupported?)
  missing : c.missing.IsGatheredFrom (log.filterMap Operation.missing?)

variable {entry content : Text} {log : List Operation} {c : Collector}

/-- Without names nothing is recorded, not even the file. -/
theorem addUnsupported_eq (c : Collector) (path : Text) (names : List Text) :
    c.addUnsupported path names = if names = [] then c else
      { c with unsupported :=
          c.unsupported.insert path (appendNew ((c.unsupported.get? path).getD []) names) } := by
  unfold addUnsupported
  by_cases hnames : names = []
  · rw [if_pos hnames, hnames]
    cases hget : c.unsupported.get? path with
    | none => rfl
    | some known =>
      -- the entry that is there is written again, with the names that it has
      have hsame : appendNew ((some known).getD []) [] = known := rfl
      rw [hsame]
      cases known with
      | nil => rfl
      | cons name known =>
        dsimp only
        rw [OrderedMap.insert_of_get? hget]
  · rw [if_neg hnames]
    split
    · rename_i hnil
      exact absurd hnil (appendNew_ne_nil _ hnames)
    · rfl

/-! ## One step -/

/-- An operation changes the map that it is about, and a question changes nothing. -/
theorem perform_eq (c : Collector) (op : Operation) :
    c.perform op =
      { entrypoint := c.entrypoint
        files := match op.file? with
          | some f => c.files.insertIfNew f.1 f.2
          | none => c.files
        unparsed := match op.unparsed? with
          | some f => c.unparsed.insert f.1 f.2
          | none => c.unparsed
        unsupported := match op.unsupported? with
          | some u => c.unsupported.insert u.1 (appendNew ((c.unsupported.get? u.1).getD []) u.2)
          | none => c.unsupported
        missing := match op.missing? with
          | some m => c.missing.insert m.1 (appendNew ((c.missing.get? m.1).getD []) m.2)
          | none => c.missing } := by
  cases op with
  | addUnsupported path names =>
    unfold perform Operation.unsupported?
    dsimp only
    rw [addUnsupported_eq]
    by_cases hnames : names = []
    · rw [if_pos hnames, if_pos hnames]
      rfl
    · rw [if_neg hnames, if_neg hnames]
      rfl
  | _ => rfl

/-- One more operation adds a mention to the map that it is about. -/
theorem IsRecordOf.perform (h : IsRecordOf entry content log c) (op : Operation) :
    IsRecordOf entry content (log ++ [op]) (c.perform op) := by
  rw [perform_eq]
  refine ⟨h.entrypoint, ?_, ?_, ?_, ?_⟩ <;> rw [List.filterMap_append]
  · cases hop : op.file? with
    | none => simpa [hop] using h.files
    | some f => simpa [hop] using OrderedMap.insertIfNew_first h.files f.1 f.2
  · cases hop : op.unparsed? with
    | none => simpa [hop] using h.unparsed
    | some f => simpa [hop] using OrderedMap.insert_last h.unparsed f.1 f.2
  · cases hop : op.unsupported? with
    | none => simpa [hop] using h.unsupported
    | some u => simpa [hop] using OrderedMap.insert_gathered h.unsupported u.1 u.2
  · cases hop : op.missing? with
    | none => simpa [hop] using h.missing
    | some m => simpa [hop] using OrderedMap.insert_gathered h.missing m.1 m.2

theorem isRecordOf_start (entry content : Text) :
    IsRecordOf entry content [] (start entry content) := by
  refine ⟨rfl, ⟨rfl, fun k => ?_⟩, ⟨rfl, fun k => rfl⟩, ⟨rfl, fun k => rfl⟩, rfl, fun k => rfl⟩
  have hget := OrderedMap.get?_insert (∅ : OrderedMap Text Text) entry k content
  unfold start
  rw [hget]
  by_cases hk : entry = k
  · simp [hk]
  · simp [hk]
    rfl

theorem replay_append_singleton (entry content : Text) (log : List Operation) (op : Operation) :
    replay entry content (log ++ [op]) = (replay entry content log).perform op := by
  unfold replay
  rw [List.foldl_append]
  rfl

/-- The log of a run. -/
theorem isRecordOf_replay (entry content : Text) (log : List Operation) :
    IsRecordOf entry content log (replay entry content log) := by
  induction log using List.reverseRecOn with
  | nil => exact isRecordOf_start entry content
  | append_singleton log op ih =>
    rw [replay_append_singleton]
    exact ih.perform op

/-! ## Growth -/

/-- Nothing is taken away and nothing changes its place; contents stay, and names and referrers are
added behind those that were there. -/
structure Extends (c c' : Collector) : Prop where
  entrypoint : c'.entrypoint = c.entrypoint
  files : Grows Eq c.files c'.files
  unparsed : Grows (fun _ _ => True) c.unparsed c'.unparsed
  unsupported : Grows List.IsPrefix c.unsupported c'.unsupported
  missing : Grows List.IsPrefix c.missing c'.missing

theorem extends_perform (c : Collector) (op : Operation) : c.Extends (c.perform op) := by
  have hgathered : ∀ (m : OrderedMap Text (List Text)) (u : Text × List Text),
      Grows List.IsPrefix m (m.insert u.1 (appendNew ((m.get? u.1).getD []) u.2)) := by
    intro m u
    refine Grows.insert (fun _ => List.prefix_rfl) fun before hbefore => ?_
    rw [hbefore]
    exact prefix_appendNew before u.2
  rw [perform_eq]
  refine ⟨rfl, ?_, ?_, ?_, ?_⟩
  · cases op.file? with
    | none => exact Grows.refl (fun _ => rfl) _
    | some f =>
      dsimp only
      by_cases hkey : f.1 ∈ c.files.keys
      · rw [OrderedMap.insertIfNew_of_mem hkey]
        exact Grows.refl (fun _ => rfl) _
      · rw [OrderedMap.insertIfNew_of_not_mem hkey]
        refine Grows.insert (fun _ => rfl) fun before hbefore => ?_
        exact absurd (OrderedMap.mem_keys_iff.2 ⟨before, hbefore⟩) hkey
  · cases op.unparsed? with
    | none => exact Grows.refl (fun _ => trivial) _
    | some f => exact Grows.insert (fun _ => trivial) fun _ _ => trivial
  · cases op.unsupported? with
    | none => exact Grows.refl (fun _ => List.prefix_rfl) _
    | some u => exact hgathered _ u
  · cases op.missing? with
    | none => exact Grows.refl (fun _ => List.prefix_rfl) _
    | some m => exact hgathered _ m

/-! ## Logs -/

/-- What a log says about one map is said by the operations that are about that map. -/
theorem filterMap_filter_isSome {α β : Type} (f : α → Option β) (l : List α) :
    (l.filter fun a => (f a).isSome).filterMap f = l.filterMap f := by
  rw [List.filterMap_filter]
  refine List.filterMap_congr fun a _ => ?_
  cases f a <;> rfl

/-- A file for which no names were recorded has no entry. -/
theorem IsRecordOf.names_ne_nil (h : IsRecordOf entry content log c) {path : Text}
    {names : List Text} (hnames : c.unsupported.get? path = some names) : names ≠ [] := by
  rw [h.unsupported.get?] at hnames
  obtain ⟨u, hfind, rfl⟩ := Option.map_eq_some_iff.1 hnames
  have hu := List.mem_of_find?_eq_some hfind
  have hpath := List.find?_some hfind
  obtain ⟨op, -, hop⟩ := List.mem_filterMap.1 hu
  obtain ⟨name, hname⟩ := List.exists_mem_of_ne_nil _ (Operation.ne_nil_of_unsupported? hop)
  have hmem : name ∈ OrderedMap.gathered (log.filterMap Operation.unsupported?) path := by
    refine List.mem_eraseDups.2 (List.mem_flatMap.2 ⟨u, ?_, hname⟩)
    exact List.mem_filter.2 ⟨hu, hpath⟩
  exact List.ne_nil_of_mem hmem

theorem hasFaults_iff : c.hasFaults = true ↔
    ¬ (c.missing.entries = [] ∧ c.unparsed.entries = [] ∧ c.unsupported.entries = []) := by
  unfold hasFaults
  rw [Bool.not_eq_true', ← Bool.not_eq_true, Bool.and_eq_true, Bool.and_eq_true, and_assoc,
    OrderedMap.isEmpty_iff, OrderedMap.isEmpty_iff, OrderedMap.isEmpty_iff]

/-- **The log.** After any operations in any order, the findings are told by the log: each map lists
its keys in the order of first mention, the files from the entrypoint on, and gives each the first
content, the last reason, or all names or referrers mentioned, each once; a file that is recorded to
use packages is recorded with some. The next operation removes nothing and moves nothing. Each map
is told by the operations that are about it. And a validation fails if one of the categories is not
empty, with all of them, and changes nothing. -/
theorem replay_records (entry content : Text) (log : List Operation) :
    IsRecordOf entry content log (replay entry content log)
      ∧ (∃ rest, (replay entry content log).files.keys = entry :: rest ∧ (entry :: rest).Nodup)
      ∧ (∀ path names,
          (replay entry content log).unsupported.get? path = some names → names ≠ [])
      ∧ (∀ op, (replay entry content log).Extends (replay entry content (log ++ [op])))
      ∧ ((replay entry content (log.filter (·.file?.isSome))).files
            = (replay entry content log).files
          ∧ (replay entry content (log.filter (·.unparsed?.isSome))).unparsed
            = (replay entry content log).unparsed
          ∧ (replay entry content (log.filter (·.unsupported?.isSome))).unsupported
            = (replay entry content log).unsupported
          ∧ (replay entry content (log.filter (·.missing?.isSome))).missing
            = (replay entry content log).missing)
      ∧ (replay entry content log).validate
          = (if (replay entry content log).missing.entries = []
              ∧ (replay entry content log).unparsed.entries = []
              ∧ (replay entry content log).unsupported.entries = [] then .ok ()
            else .error (.faulty
              { entrypoint := entry
                missing := (replay entry content log).missing
                unparsed := (replay entry content log).unparsed
                unsupported := (replay entry content log).unsupported }))
      ∧ replay entry content (log ++ [.validate]) = replay entry content log := by
  have hrecord := isRecordOf_replay entry content log
  refine ⟨hrecord, ?_, fun _ _ => hrecord.names_ne_nil, ?_, ⟨?_, ?_, ?_, ?_⟩, ?_, ?_⟩
  · have hkeys := hrecord.files.keys
    rw [List.map_cons, List.eraseDups_cons] at hkeys
    refine ⟨_, hkeys, ?_⟩
    rw [← hkeys]
    exact OrderedMap.nodup_keys _
  · intro op
    rw [replay_append_singleton]
    exact extends_perform _ op
  · have hfiles := (isRecordOf_replay entry content (log.filter (·.file?.isSome))).files
    rw [filterMap_filter_isSome] at hfiles
    exact hfiles.unique hrecord.files
  · have hunparsed := (isRecordOf_replay entry content (log.filter (·.unparsed?.isSome))).unparsed
    rw [filterMap_filter_isSome] at hunparsed
    exact hunparsed.unique hrecord.unparsed
  · have hunsupported :=
      (isRecordOf_replay entry content (log.filter (·.unsupported?.isSome))).unsupported
    rw [filterMap_filter_isSome] at hunsupported
    exact hunsupported.unique hrecord.unsupported
  · have hmissing := (isRecordOf_replay entry content (log.filter (·.missing?.isSome))).missing
    rw [filterMap_filter_isSome] at hmissing
    exact hmissing.unique hrecord.missing
  · unfold validate faultReport
    by_cases hfaults : (replay entry content log).hasFaults
    · rw [if_pos hfaults, if_neg (hasFaults_iff.1 hfaults), hrecord.entrypoint]
    · rw [if_neg hfaults, if_pos (not_not.1 (mt hasFaults_iff.2 hfaults))]
  · rw [replay_append_singleton]
    rfl

/-- Operations of all kinds, some of which say again what was said, or nothing. -/
def mixedLog : List Operation :=
  [.addUnsupported ['c'] [], .addMissing ['b'] none, .addFile ['c'] ['x'],
    .addUnsupported ['a'] [['q']], .addFile ['c'] ['y'], .addMissing ['b'] (some ['a']), .validate,
    .addUnparsed ['c'] ['1'], .addUnsupported ['a'] [['q'], ['p']], .addMissing ['b'] (some ['a']),
    .addUnparsed ['c'] ['2']]

theorem mixedLog_recorded :
    (replay ['a'] ['z'] mixedLog).files.keys = ([['a'], ['c']] : List Text)
      ∧ (replay ['a'] ['z'] mixedLog).files.get? ['c'] = some (['x'] : Text)
      ∧ (replay ['a'] ['z'] mixedLog).unparsed.get? ['c'] = some (['2'] : Text)
      ∧ (replay ['a'] ['z'] mixedLog).missing.get? ['b'] = some ([['a']] : List Text)
      ∧ (replay ['a'] ['z'] mixedLog).unsupported.keys = ([['a']] : List Text)
      ∧ (replay ['a'] ['z'] mixedLog).unsupported.get? ['a'] = some ([['q'], ['p']] : List Text)
      ∧ ([['q'], ['p']] : List Text) ≠ [] :=
  have hnames : (replay ['a'] ['z'] mixedLog).unsupported.get? ['a']
    = some ([['q'], ['p']] : List Text) := rfl
  ⟨rfl, rfl, rfl, rfl, rfl, hnames, (replay_records ['a'] ['z'] mixedLog).2.2.1 _ _ hnames⟩

end Collector

end ImportClosure
