import ImportClosure.Proofs.Memory
import ImportClosure.Proofs.Outcome
/-!
What a run without a limit returns.

The breadth-first order of the reachable files is a list without repetitions, so its entries are
a map as they stand, and the verdict on them depends only on whether there is something to report
about one of them. Read through the import graph that is the specification of a successful run:
it succeeds exactly if every reachable file is sound, and then it returns the texts of the
reachable files (`resolve_returns_closure`).
-/

namespace ImportClosure.Resolution

variable {s : Settings} {r : Reader} {e : SourceFile} {entrypoint : Text}
variable {order : List SourceFile}

/-! ## Reachable files and their order -/

theorem mem_order_iff (ho : BreadthFirst (importedFiles s r) e order) {f : SourceFile} :
    f ∈ order ↔ Reachable s r e f := by
  rw [ho.mem_iff, reachable_eq]

theorem nodup_order_paths (he : IsEntry r entrypoint e)
    (ho : BreadthFirst (importedFiles s r) e order) : (order.map SourceFile.path).Nodup := by
  apply nodup_paths (r := r) ho.nodup
  intro f hf
  exact ((mem_order_iff ho).1 hf).stored he.stored

/-- Without a limit the outcome is the verdict on the reachable files. -/
theorem resolve_outcome_of_no_limit (hs : s.Total) (hr : r.IsFinite) (hlimit : s.maxFiles = 0)
    (he : IsEntry r entrypoint e) (ho : BreadthFirst (importedFiles s r) e order) :
    (resolve s r entrypoint).outcome = verdict s r e order := by
  rw [resolve_outcome hs hr he ho, if_neg]
  rintro ⟨_, hex⟩
  rw [hlimit, exceeds_zero] at hex
  exact Bool.false_ne_true hex

/-! ## The verdict -/

/-- The findings about the files of an order. -/
theorem accounts_order (he : IsEntry r entrypoint e)
    (ho : BreadthFirst (importedFiles s r) e order) :
    Accounts s r order (ledger s r (.start e.path e.content) order) :=
  (accounts_start e.path e.content).ledger (nodup_order_paths he ho)

/-- The verdict is favourable if every reachable file is sound. -/
theorem hasFaults_eq_false_iff_sound (hs : s.Total) (he : IsEntry r entrypoint e)
    (ho : BreadthFirst (importedFiles s r) e order) :
    (ledger s r (.start e.path e.content) order).hasFaults = false
      ↔ ∀ f, Reachable s r e f → Sound s r f := by
  rw [(accounts_order he ho).hasFaults_eq_false_iff]
  constructor
  · intro h f hf
    exact (sound_iff_examined (examine_eq_ok hs f)).2 (h f ((mem_order_iff ho).2 hf))
  · intro h f hf
    exact (sound_iff_examined (examine_eq_ok hs f)).1 (h f ((mem_order_iff ho).1 hf))

/-- A favourable verdict lists the order. -/
theorem verdict_eq_ok_iff {files : OrderedMap Text Text} :
    verdict s r e order = .ok files
      ↔ (ledger s r (.start e.path e.content) order).hasFaults = false
        ∧ .ofList (order.map SourceFile.entry) = files := by
  unfold verdict
  cases (ledger s r (.start e.path e.content) order).hasFaults <;> simp

/-- A text is listed for a path if the storage has it there and the path is reachable. -/
theorem mem_entries_iff (he : IsEntry r entrypoint e)
    (ho : BreadthFirst (importedFiles s r) e order) {path content : Text} :
    (path, content) ∈ order.map SourceFile.entry
      ↔ (∃ f, Reachable s r e f ∧ f.path = path) ∧ r.read path = .ok content := by
  rw [List.mem_map]
  constructor
  · rintro ⟨f, hf, heq⟩
    have hreach := (mem_order_iff ho).1 hf
    obtain ⟨hpath, hcontent⟩ := Prod.mk.inj heq
    refine ⟨⟨f, hreach, hpath⟩, ?_⟩
    rw [← hpath, ← hcontent]
    exact (hreach.stored he.stored).read
  · rintro ⟨⟨f, hreach, rfl⟩, hread⟩
    refine ⟨f, (mem_order_iff ho).2 hreach, ?_⟩
    have hcontent : f.content = content :=
      Except.ok.inj ((hreach.stored he.stored).read.symm.trans hread)
    rw [← hcontent]
    rfl

/-! ## Three scripts

Two scripts that import each other, beside a third one that neither of them needs. Their lines
are read as specifiers, so that runs on them can be followed without a parser. -/

/-- Settings under which the lines of a text are its specifiers. -/
def lineSettings : Settings where
  allowed := []
  extract := fun content _ =>
    .ok (.found (Specifiers.none.registerAll ((content.splitOn '\n').map some)))
  maxFiles := 0

theorem total_lineSettings : lineSettings.Total := fun _ _ => ⟨_, rfl⟩

/-- The script `a.js` with the line `./b`. -/
def scriptA : SourceFile :=
  ⟨['a', Path.dot, 'j', 's'], [Path.dot, Path.slash, 'b'], some .javascript⟩

/-- The script `b.js` with the line `./a.js`. -/
def scriptB : SourceFile :=
  ⟨['b', Path.dot, 'j', 's'], [Path.dot, Path.slash, 'a', Path.dot, 'j', 's'], some .javascript⟩

/-- The script `c.js`, which is empty. -/
def scriptC : SourceFile := ⟨['c', Path.dot, 'j', 's'], [], some .javascript⟩

/-- The scripts in memory. -/
def scripts : MemoryFiles :=
  MemoryFiles.empty.addAll ([scriptA, scriptB, scriptC].map SourceFile.entry)

theorem isEntry_scriptA : IsEntry scripts.reader scriptA.path scriptA := ⟨rfl, by decide⟩

/-! ## Successful runs -/

/-- **The closure.** A run without a limit succeeds exactly if every reachable file is sound, and
then it returns each reachable path once, with the text that the storage has there. -/
theorem resolve_returns_closure (hs : s.Total) (hr : r.IsFinite) (hlimit : s.maxFiles = 0)
    (he : IsEntry r entrypoint e) :
    ((∃ files, (resolve s r entrypoint).outcome = .ok files)
        ↔ ∀ f, Reachable s r e f → Sound s r f)
      ∧ ∀ files, (resolve s r entrypoint).outcome = .ok files →
          files.keys.Nodup
          ∧ (∀ path, path ∈ files.keys ↔ ∃ f, Reachable s r e f ∧ f.path = path)
          ∧ ∀ path content, files.get? path = some content
              ↔ (∃ f, Reachable s r e f ∧ f.path = path) ∧ r.read path = .ok content := by
  obtain ⟨order, ho⟩ := exists_breadthFirst hs hr he
  rw [resolve_outcome_of_no_limit hs hr hlimit he ho]
  have hget : ∀ path content, (OrderedMap.ofList (order.map SourceFile.entry)).get? path
        = some content
      ↔ (∃ f, Reachable s r e f ∧ f.path = path) ∧ r.read path = .ok content := by
    intro path content
    rw [OrderedMap.get?_eq_some_iff, entries_ofList (nodup_order_paths he ho)]
    exact mem_entries_iff he ho
  refine ⟨?_, ?_⟩
  · rw [← hasFaults_eq_false_iff_sound hs he ho]
    constructor
    · rintro ⟨files, hfiles⟩
      exact (verdict_eq_ok_iff.1 hfiles).1
    · intro hfaults
      exact ⟨_, verdict_eq_ok_iff.2 ⟨hfaults, rfl⟩⟩
  · intro files hfiles
    rw [← (verdict_eq_ok_iff.1 hfiles).2]
    refine ⟨OrderedMap.nodup_keys _, ?_, hget⟩
    intro path
    rw [OrderedMap.mem_keys_iff]
    constructor
    · rintro ⟨content, hcontent⟩
      exact ((hget path content).1 hcontent).1
    · rintro ⟨f, hreach, rfl⟩
      exact ⟨f.content, (hget _ _).2 ⟨⟨f, hreach, rfl⟩, (hreach.stored he.stored).read⟩⟩

/-- The run over the three scripts shows two of them to be sound, and does not need the third. -/
theorem scripts_closure :
    (∀ f, Reachable lineSettings scripts.reader scriptA f → Sound lineSettings scripts.reader f)
      ∧ ¬ ∃ f, Reachable lineSettings scripts.reader scriptA f ∧ f.path = scriptC.path := by
  have h := resolve_returns_closure total_lineSettings scripts.isFinite_reader rfl
    isEntry_scriptA
  have hrun : (resolve lineSettings scripts.reader scriptA.path).outcome
      = .ok (.ofList [scriptA.entry, scriptB.entry]) := rfl
  -- a path outside the result is not the path of a reachable file
  refine ⟨h.1.1 ⟨_, hrun⟩, ?_⟩
  rw [← (h.2 _ hrun).2.1]
  decide

end ImportClosure.Resolution
