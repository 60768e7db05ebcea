import ImportClosure.Proofs.Closure
/-!
What the limit on the number of files does.

The limit is checked each time a file is found, in the middle of the work, when some files have
been looked at and others have not. That comes to the same as counting the reachable files
beforehand: a run fails for its limit exactly if they are more than the limit, whatever else is
wrong with them, and otherwise its outcome is that of the run without a limit
(`resolve_limit_exact`).
-/

namespace ImportClosure.Resolution

variable {s : Settings} {r : Reader} {e : SourceFile} {entrypoint : Text}
variable {order : List SourceFile}

/-! ## The number of reachable files -/

/-- The paths of the reachable files. -/
def reachablePaths (s : Settings) (r : Reader) (e : SourceFile) : Set Text :=
  {path | ∃ f, Reachable s r e f ∧ f.path = path}

/-- There are as many of them as there are files in the order. -/
theorem encard_reachablePaths (he : IsEntry r entrypoint e)
    (ho : BreadthFirst (importedFiles s r) e order) :
    (reachablePaths s r e).encard = order.length := by
  have hset : reachablePaths s r e = {path | ∃ f ∈ order, f.path = path} := by
    ext path
    exact exists_congr fun f => and_congr_left fun _ => (mem_order_iff ho).symm
  rw [hset, encard_paths (nodup_order_paths he ho)]

/-! ## The limit -/

theorem exceeds_iff {limit : Int} (hlimit : 1 ≤ limit) (n : Nat) :
    1 < n ∧ exceeds limit n = true ↔ limit < n := by
  unfold exceeds
  rw [Bool.and_eq_true, bne_iff_ne, decide_eq_true_eq]
  omega

/-- With a limit the outcome is settled by the number of reachable files and the verdict. -/
theorem resolve_outcome_of_limit (hs : s.Total) (hr : r.IsFinite) (hlimit : 1 ≤ s.maxFiles)
    (he : IsEntry r entrypoint e) (ho : BreadthFirst (importedFiles s r) e order) :
    (resolve s r entrypoint).outcome =
      if s.maxFiles < order.length then
        .error (.reported (.limitExceeded e.path s.maxFiles))
      else verdict s r e order := by
  rw [resolve_outcome hs hr he ho]
  simp only [exceeds_iff hlimit]

/-- The verdict on files is not about their number. -/
theorem verdict_ne_limitExceeded (path : Text) (limit : Int) :
    verdict s r e order ≠ .error (.reported (.limitExceeded path limit)) := by
  unfold verdict
  split <;> exact nofun

/-- **The limit.** A run with a limit fails for it exactly if more files are reachable than it
allows, and otherwise has the outcome of the run without a limit. -/
theorem resolve_limit_exact (hs : s.Total) (hr : r.IsFinite) (hlimit : 1 ≤ s.maxFiles)
    (he : IsEntry r entrypoint e) :
    ∃ n : Nat, (reachablePaths s r e).encard = n
      ∧ (∀ path limit, (resolve s r entrypoint).outcome
            = .error (.reported (.limitExceeded path limit))
          ↔ s.maxFiles < n ∧ path = Path.normalize entrypoint ∧ limit = s.maxFiles)
      ∧ (n ≤ s.maxFiles → (resolve s r entrypoint).outcome
          = (resolve { s with maxFiles := 0 } r entrypoint).outcome) := by
  obtain ⟨order, ho⟩ := exists_breadthFirst hs hr he
  refine ⟨order.length, encard_reachablePaths he ho, ?_, ?_⟩
  · intro path limit
    rw [resolve_outcome_of_limit hs hr hlimit he ho, he.path_eq]
    by_cases hover : s.maxFiles < order.length
    · rw [if_pos hover]
      constructor
      · intro heq
        injection heq with heq
        injection heq with heq
        injection heq with hpath hlim
        exact ⟨hover, hpath.symm, hlim.symm⟩
      · rintro ⟨_, rfl, rfl⟩
        rfl
    · rw [if_neg hover]
      constructor
      · intro heq
        exact absurd heq (verdict_ne_limitExceeded path limit)
      · rintro ⟨hover', _, _⟩
        exact absurd hover' hover
  · intro hle
    -- the import graph and the verdict do not depend on the limit
    have hs₀ : ({ s with maxFiles := 0 } : Settings).Total := hs
    have ho₀ : BreadthFirst (importedFiles { s with maxFiles := 0 } r) e order := ho
    rw [resolve_outcome_of_limit hs hr hlimit he ho, if_neg (by omega),
      resolve_outcome_of_no_limit hs₀ hr rfl he ho₀]
    rfl

/-- The settings that read lines as specifiers, with a limit of one file. -/
def singleFile : Settings := { lineSettings with maxFiles := 1 }

/-- More than one of the scripts is needed, as a run with a limit of one file shows. -/
theorem scripts_limit :
    ∃ n : Nat, (reachablePaths singleFile scripts.reader scriptA).encard = n ∧ 1 < n := by
  have hs : singleFile.Total := total_lineSettings
  have hlimit : 1 ≤ singleFile.maxFiles := by decide
  obtain ⟨n, hn, hiff, _⟩ := resolve_limit_exact hs scripts.isFinite_reader hlimit
    isEntry_scriptA
  have hrun : (resolve singleFile scripts.reader scriptA.path).outcome
      = .error (.reported (.limitExceeded scriptA.path 1)) := rfl
  have hover : (1 : Int) < n := ((hiff _ _).1 hrun).1
  exact ⟨n, hn, by omega⟩

end ImportClosure.Resolution
