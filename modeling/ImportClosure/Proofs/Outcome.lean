import ImportClosure.Proofs.Walk
import Mathlib.Data.Set.Card
/-!
The outcome of a run, as a function of the import graph.

Over a storage that lists what can be read, and with extractors that answer on every text, a run
never stops for want of steps: the files it has found are distinct paths of that list. So its
outcome is the one that the breadth-first order of the reachable files prescribes
(`resolve_outcome`): an exceeded limit if there are too many of them, and otherwise their texts
or the report about them (`verdict`). The queue, the trace and the number of steps are gone from
this statement, and what is claimed about whole runs is read off it.
-/

namespace ImportClosure.Resolution

open Candidate (Stored)

variable {s : Settings} {r : Reader} {e : SourceFile} {entrypoint : Text}
variable {done order : List SourceFile} {w : Walk}

theorem faulty_inj {α : Type} {report report' : FaultReport}
    (h : (.error (.reported (.faulty report)) : Except Failure α)
      = .error (.reported (.faulty report'))) : report = report' := by
  injection h with h
  injection h with h
  injection h with h

/-! ## What an order prescribes -/

/-- The texts of the files in this order, or the report about them. -/
def verdict (s : Settings) (r : Reader) (e : SourceFile) (order : List SourceFile) :
    Except Failure (OrderedMap Text Text) :=
  if (ledger s r (.start e.path e.content) order).hasFaults then
    .error (.reported (.faulty (ledger s r (.start e.path e.content) order).faultReport))
  else .ok (.ofList (order.map SourceFile.entry))

theorem entries_ofList {files : List SourceFile} (h : (files.map SourceFile.path).Nodup) :
    (OrderedMap.ofList (files.map SourceFile.entry)).entries = files.map SourceFile.entry := by
  unfold OrderedMap.ofList
  rw [OrderedMap.entries_foldl_insert, OrderedMap.entries_empty, List.nil_append]
  rw [OrderedMap.keys_empty, List.nil_append, List.map_map]
  exact h

/-- Files of one storage have different paths. -/
theorem nodup_paths {files : List SourceFile} (hn : files.Nodup) (hs : ∀ f ∈ files, Stored r f) :
    (files.map SourceFile.path).Nodup :=
  hn.map_on fun f hf g hg h => (hs f hf).eq_of_path_eq (hs g hg) h

/-- A list without repetitions has as many items as a set. -/
theorem encard_of_nodup {ts : List Text} (h : ts.Nodup) : {t | t ∈ ts}.encard = ts.length := by
  have hset : {t | t ∈ ts} = (ts.toFinset : Set Text) := by
    ext t
    rw [Finset.mem_coe, List.mem_toFinset]
    rfl
  rw [hset, Set.encard_coe_eq_coe_finsetCard, List.toFinset_card_of_nodup h]

/-- Files with different paths have as many paths as they are. -/
theorem encard_paths {files : List SourceFile} (h : (files.map SourceFile.path).Nodup) :
    {path | ∃ f ∈ files, f.path = path}.encard = files.length := by
  have hset : {path | ∃ f ∈ files, f.path = path}
      = {path | path ∈ files.map SourceFile.path} := by
    ext path
    exact List.mem_map.symm
  rw [hset, encard_of_nodup h, List.length_map]

theorem Underway.finish_outcome (h : Underway s r e done w) (hq : w.queue = [])
    (he : Stored r e) : (finish w).outcome = verdict s r e done := by
  have hn := nodup_paths h.nodup (h.stored he)
  rw [hq, List.append_nil] at hn
  have hfiles : w.findings.files = .ofList (done.map SourceFile.entry) := by
    apply OrderedMap.ext_entries
    rw [entries_ofList hn, h.files, hq, List.append_nil]
  have hfaults : w.findings.hasFaults
      = (ledger s r (.start e.path e.content) done).hasFaults := by
    rw [h.findings]
    rfl
  have hreport : w.findings.faultReport
      = (ledger s r (.start e.path e.content) done).faultReport := by
    rw [h.findings]
    rfl
  unfold finish Collector.validate verdict
  rw [hfaults, hreport, hfiles]
  by_cases hf : (ledger s r (.start e.path e.content) done).hasFaults = true
  · rw [if_pos hf, if_pos hf]
  · rw [if_neg hf, if_neg hf]

/-! ## Runs come to their end -/

/-- The files found are listed by the storage. -/
theorem Underway.length_le (h : Underway s r e done w) (hr : r.IsFinite)
    (he : IsEntry r entrypoint e) : (done ++ w.queue).length ≤ r.paths.length := by
  have hn := nodup_paths h.nodup (h.stored he.stored)
  have hsub : (done ++ w.queue).map SourceFile.path ⊆ r.paths := by
    intro p hp
    obtain ⟨f, hf, rfl⟩ := List.mem_map.1 hp
    exact hr f.path f.content ((h.reachable f hf).isNormal he.isNormal)
      (h.stored he.stored f hf).read
  have hle := (List.subperm_of_subset hn hsub).length_le
  rwa [List.length_map] at hle

/-- A run over a finite storage takes all files from its queue, or meets too many files, or a
text that cannot be handed to the extractor. -/
theorem resolve_ends_of_isFinite (hr : r.IsFinite) (he : IsEntry r entrypoint e) :
    (∃ done w, Underway s r e done w ∧ w.queue = []
        ∧ (resolve s r entrypoint).outcome = verdict s r e done)
      ∨ (Overflows s r e ∧ (resolve s r entrypoint).outcome
          = .error (.reported (.limitExceeded e.path s.maxFiles)))
      ∨ ∃ f why, Reachable s r e f ∧ examine s r f = .error why
        ∧ (resolve s r entrypoint).outcome = .error (.unencodable why) := by
  have hends := resolve_ends (s := s) he
  generalize resolve s r entrypoint = x at hends ⊢
  cases hends with
  | drained h hq => exact Or.inl ⟨_, _, h, hq, h.finish_outcome hq he.stored⟩
  | overflowed h => exact Or.inr (Or.inl ⟨h, rfl⟩)
  | unencodable hf hw => exact Or.inr (Or.inr ⟨_, _, hf, hw, rfl⟩)
  | unfinished h hq hlen =>
    -- a file that is still queued would be one more than the storage lists
    exfalso
    have hle := h.length_le hr he
    have hpos := List.length_pos_iff.2 hq
    rw [List.length_append] at hle
    omega

/-! ## The outcome -/

theorem exceeds_mono {limit : Int} {m n : Nat} (hmn : m ≤ n) (h : exceeds limit m = true) :
    exceeds limit n = true := by
  unfold exceeds at h ⊢
  rw [Bool.and_eq_true, decide_eq_true_eq] at h ⊢
  exact ⟨h.1, by omega⟩

/-- There are too many files exactly if there are too many in the order. -/
theorem overflows_iff (ho : BreadthFirst (importedFiles s r) e order) :
    Overflows s r e ↔ 1 < order.length ∧ exceeds s.maxFiles order.length = true := by
  constructor
  · rintro ⟨visited, hn, hv, hlen, hex⟩
    -- whatever was visited is in the order, which is therefore at least as long
    have hsub : visited ⊆ order := by
      intro f hf
      have hreach := hv f hf
      rw [reachable_eq] at hreach
      exact ho.mem_iff.2 hreach
    have hle := (List.subperm_of_subset hn hsub).length_le
    exact ⟨by omega, exceeds_mono hle hex⟩
  · rintro ⟨hlen, hex⟩
    refine ⟨order, ho.nodup, ?_, hlen, hex⟩
    intro f hf
    rw [reachable_eq]
    exact ho.reached f hf

/-- The reachable files of a finite storage have a breadth-first order, if each of them can be
looked at. -/
theorem exists_breadthFirst_of_looked
    (hx : ∀ f, Reachable s r e f → examine s r f = .ok (examined s r f)) (hr : r.IsFinite)
    (he : IsEntry r entrypoint e) : ∃ order, BreadthFirst (importedFiles s r) e order := by
  -- a run without a limit goes through it
  rcases resolve_ends_of_isFinite (s := { s with maxFiles := 0 }) hr he with
    ⟨done, w, h, hq, _⟩ | ⟨⟨visited, _, _, _, hex⟩, _⟩ | ⟨f, why, hf, hw, _⟩
  · exact ⟨done, h.breadthFirst hq⟩
  · exact absurd hex Bool.false_ne_true
  · have hlooked : examine { s with maxFiles := 0 } r f = .ok (examined s r f) := hx f hf
    rw [hlooked] at hw
    exact absurd hw nofun

theorem exists_breadthFirst (hs : s.Total) (hr : r.IsFinite) (he : IsEntry r entrypoint e) :
    ∃ order, BreadthFirst (importedFiles s r) e order :=
  exists_breadthFirst_of_looked (fun f _ => examine_eq_ok hs f) hr he

/-- A walk that comes to its end has kept to the limit. -/
theorem Underway.not_over (h : Underway s r e done w) (hq : w.queue = []) :
    ¬ (1 < done.length ∧ exceeds s.maxFiles done.length = true) := by
  rintro ⟨hlen, hex⟩
  have hwithin := h.within
  rw [hq, List.append_nil] at hwithin
  rcases hwithin with hone | hnot
  · omega
  · rw [hnot] at hex
    exact Bool.false_ne_true hex

/-- **The outcome.** The breadth-first order of the reachable files settles the outcome, if each
of these files can be looked at. -/
theorem resolve_outcome_of_looked (hx : ∀ f ∈ order, examine s r f = .ok (examined s r f))
    (hr : r.IsFinite) (he : IsEntry r entrypoint e)
    (ho : BreadthFirst (importedFiles s r) e order) :
    (resolve s r entrypoint).outcome =
      if 1 < order.length ∧ exceeds s.maxFiles order.length = true then
        .error (.reported (.limitExceeded e.path s.maxFiles))
      else verdict s r e order := by
  rcases resolve_ends_of_isFinite (s := s) hr he with
    ⟨done, w, h, hq, hout⟩ | ⟨hover, hout⟩ | ⟨f, why, hf, hw, _⟩
  · have hdone : done = order := (h.breadthFirst hq).unique ho
    subst hdone
    rw [hout, if_neg (h.not_over hq)]
  · rw [hout, if_pos ((overflows_iff ho).1 hover)]
  · rw [reachable_eq] at hf
    rw [hx f (ho.mem_iff.2 hf)] at hw
    exact absurd hw nofun

theorem resolve_outcome (hs : s.Total) (hr : r.IsFinite) (he : IsEntry r entrypoint e)
    (ho : BreadthFirst (importedFiles s r) e order) :
    (resolve s r entrypoint).outcome =
      if 1 < order.length ∧ exceeds s.maxFiles order.length = true then
        .error (.reported (.limitExceeded e.path s.maxFiles))
      else verdict s r e order :=
  resolve_outcome_of_looked (fun f _ => examine_eq_ok hs f) hr he ho

end ImportClosure.Resolution
