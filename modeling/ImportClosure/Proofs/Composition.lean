import ImportClosure.Proofs.ExactReport
import ImportClosure.Proofs.SelfContained
import ImportClosure.Proofs.Termination
/-!
Runs from the files of a run.

What a file needs is needed by every file that needs it, so a run from a file that another run has
visited stays within the other run: it returns a part of the result if the other run returns one,
and otherwise a part of what was visited, or a report that says nothing new
(`resolve_compositional`). The two runs find files in different orders and from different sides of
a cycle. What they find out about a file is the same, since it is found out from the file alone.
-/

namespace ImportClosure

/-- Every key of a map has the same value in another one. -/
def OrderedMap.IsPartOf {κ ν : Type} [DecidableEq κ] (part whole : OrderedMap κ ν) : Prop :=
  ∀ k v, part.get? k = some v → whole.get? k = some v

theorem OrderedMap.IsPartOf.keys_subset {κ ν : Type} [DecidableEq κ] {part whole : OrderedMap κ ν}
    (h : part.IsPartOf whole) : part.keys ⊆ whole.keys := by
  intro k hk
  obtain ⟨v, hv⟩ := OrderedMap.mem_keys_iff.1 hk
  exact OrderedMap.mem_keys_iff.2 ⟨v, h k v hv⟩

/-- What a report says is also said by another one: the same reasons and the same packages of the
same files, and of missing paths no referrers that the other one does not name. -/
structure FaultReport.Within (part whole : FaultReport) : Prop where
  unparsed : part.unparsed.IsPartOf whole.unparsed
  unsupported : part.unsupported.IsPartOf whole.unsupported
  missing : ∀ path refs, part.missing.get? path = some refs →
    ∃ refs', whole.missing.get? path = some refs' ∧ refs ⊆ refs'

namespace Resolution

variable {s : Settings} {r : Reader} {e f : SourceFile} {entrypoint path : Text}
variable {order order' : List SourceFile} {files : OrderedMap Text Text} {c c' : Collector}

/-! ## Orders within orders -/

/-- A reachable file whose extension tells a grammar is an entry file. -/
theorem Reachable.isEntry (he : IsEntry r entrypoint e) (h : Reachable s r e f)
    (hv : f.variant ≠ none) : IsEntry r f.path f := by
  have hnormal : Path.normalize f.path = f.path := h.isNormal he.isNormal
  refine ⟨?_, hv⟩
  rw [hnormal]
  exact h.stored he.stored

/-- What a listed file needs is listed. -/
theorem order_subset (ho : BreadthFirst (importedFiles s r) e order)
    (ho' : BreadthFirst (importedFiles s r) f order') (hf : f ∈ order) : order' ⊆ order := by
  intro g hg
  rw [mem_order_iff ho'] at hg
  rw [mem_order_iff ho] at hf ⊢
  exact hf.trans hg

/-- The files listed can be looked at, so what any of them needs has an order as well. -/
theorem exists_breadthFirst_within (hr : r.IsFinite) (he : IsEntry r entrypoint e)
    (ho : BreadthFirst (importedFiles s r) e order)
    (hx : ∀ g ∈ order, examine s r g = .ok (examined s r g)) (hf : f ∈ order)
    (hv : f.variant ≠ none) :
    IsEntry r f.path f ∧ ∃ order', BreadthFirst (importedFiles s r) f order' ∧ order' ⊆ order := by
  have hreach := (mem_order_iff ho).1 hf
  have hfe := hreach.isEntry he hv
  refine ⟨hfe, ?_⟩
  have hlooked : ∀ g, Reachable s r f g → examine s r g = .ok (examined s r g) :=
    fun g hg => hx g ((mem_order_iff ho).2 (hreach.trans hg))
  obtain ⟨order', ho'⟩ := exists_breadthFirst_of_looked hlooked hr hfe
  exact ⟨order', ho', order_subset ho ho' hf⟩

/-- The entries of an order are those of any order around it. -/
theorem isPartOf_ofList (hn : (order.map SourceFile.path).Nodup)
    (hn' : (order'.map SourceFile.path).Nodup) (hsub : order' ⊆ order) :
    (OrderedMap.ofList (order'.map SourceFile.entry)).IsPartOf
      (.ofList (order.map SourceFile.entry)) := by
  intro path content hget
  rw [OrderedMap.get?_eq_some_iff, entries_ofList hn'] at hget
  rw [OrderedMap.get?_eq_some_iff, entries_ofList hn]
  exact List.map_subset _ hsub hget

theorem Sound.variant_ne_none (h : Sound s r f) : f.variant ≠ none := by
  obtain ⟨v, m, hp, _, _⟩ := h
  rw [hp.1]
  exact nofun

theorem mem_keys_ofList (hn : (order.map SourceFile.path).Nodup) :
    path ∈ (OrderedMap.ofList (order.map SourceFile.entry)).keys ↔ ∃ f ∈ order, f.path = path := by
  rw [keys_of_entries_eq (entries_ofList hn), List.mem_map]

/-! ## Parts of a result -/

/-- All is well with what a listed file needs, if all is well with everything listed. -/
theorem Succeeds.within (hr : r.IsFinite) (he : IsEntry r entrypoint e)
    (h : Succeeds s r e order) (hf : f ∈ order) :
    IsEntry r f.path f ∧ ∃ order', Succeeds s r f order' ∧ order' ⊆ order := by
  obtain ⟨hfe, order', ho', hsub⟩ := exists_breadthFirst_within hr he h.breadthFirst
    (fun g hg => (h.sound g hg).looked) hf (h.sound f hf).variant_ne_none
  refine ⟨hfe, order', ⟨ho', fun g hg => h.sound g (hsub hg), ?_⟩, hsub⟩
  -- fewer files do not exceed a limit that more files keep to
  rintro ⟨hlen, hex⟩
  have hle := (List.subperm_of_subset ho'.nodup hsub).length_le
  exact h.not_over ⟨by omega, exceeds_mono hle hex⟩

/-- A run from a file of a result returns a part of the result. -/
theorem exists_part (hr : r.IsFinite) (h : (resolve s r entrypoint).outcome = .ok files)
    (hpath : path ∈ files.keys) :
    ∃ part, (resolve s r path).outcome = .ok part ∧ part.IsPartOf files ∧ path ∈ part.keys := by
  obtain ⟨e, he⟩ := exists_isEntry_of_ok h
  obtain ⟨order, hsucceeds, rfl⟩ := exists_succeeds_of_ok he h
  have hn := nodup_order_paths he hsucceeds.breadthFirst
  obtain ⟨f, hf, rfl⟩ := (mem_keys_ofList hn).1 hpath
  obtain ⟨hfe, order', hsucceeds', hsub⟩ := hsucceeds.within hr he hf
  have hn' := nodup_order_paths hfe hsucceeds'.breadthFirst
  exact ⟨_, resolve_eq_ok_of_succeeds hr hfe hsucceeds', isPartOf_ofList hn hn' hsub,
    (mem_keys_ofList hn').2 ⟨f, hsucceeds'.breadthFirst.start_mem, rfl⟩⟩

/-- A result holds the entry file and what the files that it imports need. -/
theorem mem_keys_iff_of_ok (hr : r.IsFinite) (he : IsEntry r entrypoint e)
    (h : (resolve s r entrypoint).outcome = .ok files) :
    path ∈ files.keys ↔ path = e.path
      ∨ ∃ d part, Imports s r e d ∧ (resolve s r d.path).outcome = .ok part ∧ path ∈ part.keys := by
  obtain ⟨order, hsucceeds, rfl⟩ := exists_succeeds_of_ok he h
  have ho := hsucceeds.breadthFirst
  have hn := nodup_order_paths he ho
  -- a file that `e` imports is listed, and so is what it needs
  have hdirect : ∀ d, Imports s r e d →
      d.path ∈ (OrderedMap.ofList (order.map SourceFile.entry)).keys :=
    fun d hd => (mem_keys_ofList hn).2
      ⟨d, ho.next_mem ho.start_mem (mem_importedFiles.2 hd), rfl⟩
  constructor
  · intro hpath
    obtain ⟨f, hf, rfl⟩ := (mem_keys_ofList hn).1 hpath
    rcases Relation.ReflTransGen.cases_head ((mem_order_iff ho).1 hf) with rfl | ⟨d, hd, hdf⟩
    · exact Or.inl rfl
    · refine Or.inr ?_
      have hdo : d ∈ order := ho.next_mem ho.start_mem (mem_importedFiles.2 hd)
      obtain ⟨hde, order', hsucceeds', _⟩ := hsucceeds.within hr he hdo
      have hn' := nodup_order_paths hde hsucceeds'.breadthFirst
      exact ⟨d, _, hd, resolve_eq_ok_of_succeeds hr hde hsucceeds', (mem_keys_ofList hn').2
        ⟨f, (mem_order_iff hsucceeds'.breadthFirst).2 hdf, rfl⟩⟩
  · rintro (rfl | ⟨d, part, hd, hpart, hpath⟩)
    · exact (mem_keys_ofList hn).2 ⟨e, ho.start_mem, rfl⟩
    · obtain ⟨part', hpart', hle, _⟩ := exists_part hr h (hdirect d hd)
      obtain rfl : part = part' := Except.ok.inj (hpart.symm.trans hpart')
      exact hle.keys_subset hpath

/-- Two files that are in each other's results have results with the same paths. -/
theorem keys_eq_of_mutual (hr : r.IsFinite) {p q : Text} {atP atQ : OrderedMap Text Text}
    (hp : (resolve s r p).outcome = .ok atP) (hq : (resolve s r q).outcome = .ok atQ)
    (hqp : q ∈ atP.keys) (hpq : p ∈ atQ.keys) : path ∈ atP.keys ↔ path ∈ atQ.keys := by
  obtain ⟨part, hpart, hle, _⟩ := exists_part hr hp hqp
  obtain ⟨part', hpart', hle', _⟩ := exists_part hr hq hpq
  obtain rfl : part = atQ := Except.ok.inj (hpart.symm.trans hq)
  obtain rfl : part' = atP := Except.ok.inj (hpart'.symm.trans hp)
  exact ⟨fun h => hle'.keys_subset h, fun h => hle.keys_subset h⟩

/-! ## Parts of a report -/

/-- Fewer files give no more to report. -/
theorem Accounts.within (h : Accounts s r order c) (h' : Accounts s r order' c')
    (hsub : order' ⊆ order) : c'.faultReport.Within c.faultReport where
  unparsed := by
    intro path reason hget
    obtain ⟨f, hf, hpath, hrejects⟩ := (h'.unparsed_get? path reason).1 hget
    exact (h.unparsed_get? path reason).2 ⟨f, hsub hf, hpath, hrejects⟩
  unsupported := by
    intro path names hget
    rw [OrderedMap.get?_eq_some_iff] at hget ⊢
    have hget' : (path, names) ∈ c'.unsupported.entries := hget
    rw [h'.unsupported] at hget'
    have hentries : (path, names) ∈ c.unsupported.entries := by
      rw [h.unsupported]
      exact List.map_subset _ (List.filter_subset _ hsub) hget'
    exact hentries
  missing := by
    intro path refs hget
    have hget' : c'.missing.get? path = some refs := hget
    rw [h'.missing path] at hget'
    split at hget'
    · rename_i hmem
      obtain ⟨f, hf, hm⟩ := List.mem_flatMap.1 hmem
      refine ⟨(order.filter fun f => path ∈ (examined s r f).missing).map SourceFile.path, ?_, ?_⟩
      · have hwhole := h.missing path
        rwa [if_pos (List.mem_flatMap.2 ⟨f, hsub hf, hm⟩)] at hwhole
      · rw [← Option.some.inj hget']
        exact List.map_subset _ (List.filter_subset _ hsub)
    · exact absurd hget' nofun

/-- A run without a limit from a listed file returns listed files, or reports what is to be
reported about them. -/
theorem part_or_report (hr : r.IsFinite) (hlimit : s.maxFiles = 0) (he : IsEntry r entrypoint e)
    (ho : BreadthFirst (importedFiles s r) e order)
    (hx : ∀ g ∈ order, examine s r g = .ok (examined s r g)) (hf : f ∈ order)
    (hv : f.variant ≠ none) :
    (∃ part, (resolve s r f.path).outcome = .ok part
        ∧ part.IsPartOf (.ofList (order.map SourceFile.entry)))
      ∨ ∃ report, (resolve s r f.path).outcome = .error (.reported (.faulty report))
        ∧ report.Within (ledger s r (.start e.path e.content) order).faultReport := by
  obtain ⟨hfe, order', ho', hsub⟩ := exists_breadthFirst_within hr he ho hx hf hv
  have hnot : ¬ (1 < order'.length ∧ exceeds s.maxFiles order'.length = true) := by
    rw [hlimit, exceeds_zero]
    exact fun h => Bool.false_ne_true h.2
  rw [resolve_outcome_of_looked (fun g hg => hx g (hsub hg)) hr hfe ho', if_neg hnot]
  unfold verdict
  split
  · exact Or.inr ⟨_, rfl, (accounts_order he ho).within (accounts_order hfe ho') hsub⟩
  · exact Or.inl ⟨_, rfl, isPartOf_ofList (nodup_order_paths he ho) (nodup_order_paths hfe ho')
      hsub⟩

/-- The loop of a run that ends in a report has gone through an order, all of whose files could be
looked at, and the report is about them. -/
theorem exists_order_of_faulty {report : FaultReport} (hr : r.IsFinite)
    (he : IsEntry r entrypoint e)
    (h : (resolve s r entrypoint).outcome = .error (.reported (.faulty report))) :
    ∃ taken queued last, Loop s r (start e) taken queued last (resolve s r entrypoint)
      ∧ ∃ order, BreadthFirst (importedFiles s r) e order
        ∧ (∀ g ∈ order, examine s r g = .ok (examined s r g))
        ∧ last.findings.files = .ofList (order.map SourceFile.entry)
        ∧ report = (ledger s r (.start e.path e.content) order).faultReport := by
  obtain ⟨taken, queued, last, hloop⟩ := exists_loop_resolve s hr he
  refine ⟨taken, queued, last, hloop, ?_⟩
  rcases hloop.complete_or_failed with ⟨_, hempty, hx, _⟩ | ⟨_, hout⟩ | ⟨_, _, hout, _⟩
  · obtain ⟨order, hunder⟩ := hloop.underway he.stored (underway_start s r e)
    have ho := hunder.breadthFirst hempty
    refine ⟨order, ho, hunder.looked, ?_, ?_⟩
    · apply OrderedMap.ext_entries
      rw [entries_ofList (nodup_order_paths he ho), hunder.files, hempty, List.append_nil]
    · rw [hx, hunder.finish_outcome hempty he.stored] at h
      unfold verdict at h
      split at h
      · exact (faulty_inj h).symm
      · exact absurd h nofun
  · rw [hout] at h
    exact absurd h nofun
  · rw [hout] at h
    exact absurd h nofun

/-! ## Composition -/

theorem exists_isEntry_of_faulty {report : FaultReport}
    (h : (resolve s r entrypoint).outcome = .error (.reported (.faulty report))) :
    ∃ e, IsEntry r entrypoint e := by
  by_contra hnone
  rcases (resolve_of_not_isEntry (s := s) fun e he => hnone ⟨e, he⟩).1 with hout | ⟨why, hout⟩
  · rw [hout] at h
    exact absurd h nofun
  · rw [hout] at h
    exact absurd h nofun

/-! ## Four files with faults -/

/-- The script `g.js` with the line `./d`. -/
def scriptG : SourceFile :=
  ⟨['g', Path.dot, 'j', 's'], [Path.dot, Path.slash, 'd'], some .javascript⟩

/-- The script in memory, with the script `d.js` that has faults, and the file `f.t`. -/
def scriptsAroundFaults : MemoryFiles :=
  MemoryFiles.empty.addAll ([scriptG, scriptD, fileF].map SourceFile.entry)

/-- **Composition.** A run from a file of a result returns a part of the result, and the result
consists of the entry file and of the results of the files it imports, so files that need each other
need the same files. A run without a limit from a visited file of a run that ends in a report
returns visited files, or a report that says nothing new. -/
theorem resolve_compositional (hr : r.IsFinite) :
    (∀ files, (resolve s r entrypoint).outcome = .ok files →
        (∀ path ∈ files.keys, ∃ part, (resolve s r path).outcome = .ok part
          ∧ part.IsPartOf files)
        ∧ (∃ e, IsEntry r entrypoint e ∧ ∀ path, path ∈ files.keys ↔
            path = Path.normalize entrypoint ∨ ∃ d part, Imports s r e d
              ∧ (resolve s r d.path).outcome = .ok part ∧ path ∈ part.keys)
        ∧ ∀ p ∈ files.keys, ∀ q ∈ files.keys, ∀ atP atQ,
            (resolve s r p).outcome = .ok atP → (resolve s r q).outcome = .ok atQ →
            q ∈ atP.keys → p ∈ atQ.keys → ∀ path, path ∈ atP.keys ↔ path ∈ atQ.keys)
      ∧ (s.maxFiles = 0 → ∀ report,
          (resolve s r entrypoint).outcome = .error (.reported (.faulty report)) →
          ∃ e taken queued last, IsEntry r entrypoint e
            ∧ Loop s r (start e) taken queued last (resolve s r entrypoint)
            ∧ ∀ path ∈ last.findings.files.keys, Variant.ofPath? path ≠ none →
              (∃ part, (resolve s r path).outcome = .ok part
                  ∧ part.IsPartOf last.findings.files)
                ∨ ∃ report', (resolve s r path).outcome = .error (.reported (.faulty report'))
                  ∧ report'.Within report) := by
  constructor
  · intro files h
    obtain ⟨e, he⟩ := exists_isEntry_of_ok h
    refine ⟨?_, ⟨e, he, ?_⟩, ?_⟩
    · intro path hpath
      obtain ⟨part, hpart, hle, _⟩ := exists_part hr h hpath
      exact ⟨part, hpart, hle⟩
    · intro path
      rw [← he.path_eq]
      exact mem_keys_iff_of_ok hr he h
    · intro p _ q _ atP atQ hp hq hqp hpq path
      exact keys_eq_of_mutual hr hp hq hqp hpq
  · intro hlimit report h
    obtain ⟨e, he⟩ := exists_isEntry_of_faulty h
    obtain ⟨taken, queued, last, hloop, order, ho, hx, hfiles, rfl⟩ :=
      exists_order_of_faulty hr he h
    refine ⟨e, taken, queued, last, he, hloop, ?_⟩
    intro path hpath hv
    rw [hfiles] at hpath ⊢
    obtain ⟨f, hf, rfl⟩ := (mem_keys_ofList (nodup_order_paths he ho)).1 hpath
    have hstored := ((mem_order_iff ho).1 hf).stored he.stored
    have hvariant : f.variant = Variant.ofPath? f.path :=
      (Candidate.readable?_eq_some_iff.1 hstored).2.2
    exact part_or_report hr hlimit he ho hx hf (by rw [hvariant]; exact hv)

/-- The script `b.js`, which `a.js` imports, needs no more than `a.js`; and nothing is reported
about the files that `g.js` needs that the report about `g.js` does not say. -/
theorem scripts_compositional :
    (∃ part, (resolve lineSettings scripts.reader scriptB.path).outcome = .ok part
        ∧ part.IsPartOf (.ofList [scriptA.entry, scriptB.entry]))
      ∧ ∃ e taken queued last, IsEntry scriptsAroundFaults.reader scriptG.path e
        ∧ Loop lineSettings scriptsAroundFaults.reader (start e) taken queued last
            (resolve lineSettings scriptsAroundFaults.reader scriptG.path)
        ∧ ∀ path ∈ last.findings.files.keys, Variant.ofPath? path ≠ none →
          (∃ part, (resolve lineSettings scriptsAroundFaults.reader path).outcome = .ok part
              ∧ part.IsPartOf last.findings.files)
            ∨ ∃ report', (resolve lineSettings scriptsAroundFaults.reader path).outcome
                = .error (.reported (.faulty report'))
              ∧ report'.Within { reportD with entrypoint := scriptG.path } := by
  have hrun : (resolve lineSettings scripts.reader scriptA.path).outcome
      = .ok (.ofList [scriptA.entry, scriptB.entry]) := rfl
  have hfaulty : (resolve lineSettings scriptsAroundFaults.reader scriptG.path).outcome
      = .error (.reported (.faulty { reportD with entrypoint := scriptG.path })) := rfl
  exact ⟨((resolve_compositional scripts.isFinite_reader).1 _ hrun).1 scriptB.path (by decide),
    (resolve_compositional scriptsAroundFaults.isFinite_reader).2 rfl _ hfaulty⟩

end Resolution

end ImportClosure
