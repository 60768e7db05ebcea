import ImportClosure.Proofs.Closure
import ImportClosure.Proofs.Confinement
import ImportClosure.Proofs.LeadingSlashes
/-!
Every path of a run is canonical.

The files that a run has visited are told apart by the spelling of their paths, which is enough
because there is one spelling only: every path that a run stores, reports or asks for is in normal
form and has the leading slashes of the normal form of the entrypoint
(`resolve_paths_canonical`). Being canonical is what a file hands on to its candidates and to what
is asked for on account of them, so it is confined to (`handsOn_isCanonical`). Nothing is assumed of
the storage, of the extractors, or of the entrypoint.
-/

namespace ImportClosure.Resolution

open ImportClosure.Path (IsCanonical leadingSlashes slash dot)

variable {s : Settings} {r : Reader} {e f : SourceFile} {entrypoint p : Text} {n : Nat}

/-- A file at a canonical path asks for canonical paths, whatever its specifiers are. -/
theorem handsOn_isCanonical (h : IsCanonical n f.path) : HandsOn s r (IsCanonical n) f := by
  intro v m _ c hc
  obtain ⟨t, _, rfl⟩ := List.mem_map.1 hc
  have hcandidate := h.ofSpecifier t
  exact ⟨hcandidate, fun q hq =>
    hcandidate.of_mem_attempts (Candidate.mem_attempts_of_mem_asked hq)⟩

theorem IsEntry.isCanonical (he : IsEntry r entrypoint e) :
    IsCanonical (leadingSlashes (Path.normalize entrypoint)) e.path := by
  rw [he.path_eq]
  exact Path.isCanonical_normalize entrypoint

theorem resolve_isConfined_isCanonical (s : Settings) (r : Reader) (entrypoint : Text) :
    (resolve s r entrypoint).IsConfined
      (IsCanonical (leadingSlashes (Path.normalize entrypoint))) := by
  by_cases hentry : ∃ e, IsEntry r entrypoint e
  · obtain ⟨e, he⟩ := hentry
    exact he.resolve_isConfined he.isCanonical fun _ _ hf => handsOn_isCanonical hf
  · exact isConfined_of_not_isEntry (fun e he => hentry ⟨e, he⟩)
      (Path.isCanonical_normalize entrypoint)

/-- A canonical path is absolute exactly if the entrypoint is. -/
theorem head?_eq_slash_iff_of_isCanonical
    (h : IsCanonical (leadingSlashes (Path.normalize entrypoint)) p) :
    p.head? = some slash ↔ entrypoint.head? = some slash := by
  have hroot : 0 < Path.rootSlashes entrypoint ↔ 0 < leadingSlashes entrypoint := by
    unfold Path.rootSlashes leadingSlashes
    dsimp only
    split <;> omega
  rw [← Path.leadingSlashes_pos_iff, ← Path.leadingSlashes_pos_iff, h.slashes,
    Path.leadingSlashes_normalize, hroot]

/-! ## A script at the other root -/

/-- The script `//m/n.js` with the lines `/..` and `///../../p`. -/
def scriptN : SourceFile :=
  ⟨[slash, slash, 'm', slash, 'n', dot, 'j', 's'],
    [slash, dot, dot, '\n', slash, slash, slash, dot, dot, slash, dot, dot, slash, 'p'],
    some .javascript⟩

/-- The script in memory. -/
def rootedScripts : MemoryFiles := MemoryFiles.empty.addAll [scriptN.entry]

/-- **Canonical paths.** All paths that a run comes to or asks for are in normal form, and have the
leading slashes of the normal form of the entrypoint, none, one or two: at every moment of the run,
with the paths asked for so far, and at its end, however it ends. So no two paths of a result have
one normal form, and a run stays among relative paths or among absolute ones, as its entrypoint
is. -/
theorem resolve_paths_canonical (s : Settings) (r : Reader) (entrypoint : Text) :
    ∃ n, n = leadingSlashes (Path.normalize entrypoint) ∧ n ≤ 2
      ∧ (∀ e w, IsEntry r entrypoint e → ComesTo s r (start e) w → w.IsConfined (IsCanonical n))
      ∧ (resolve s r entrypoint).IsConfined (IsCanonical n)
      ∧ (∀ files, (resolve s r entrypoint).outcome = .ok files → ∀ p ∈ files.keys,
          ∀ q ∈ files.keys, Path.normalize p = Path.normalize q → p = q)
      ∧ ∀ p, IsCanonical n p → (p.head? = some slash ↔ entrypoint.head? = some slash) := by
  have hconfined := resolve_isConfined_isCanonical s r entrypoint
  refine ⟨_, rfl, (Path.isCanonical_normalize entrypoint).le_two, ?_, hconfined, ?_, ?_⟩
  · intro e w he hcomes
    exact hcomes.isConfined he.isCanonical fun _ _ hf => handsOn_isCanonical hf
  · intro files hfiles p hp q hq hnormal
    have hpn : Path.normalize p = p := (hconfined.files files hfiles p hp).normal
    have hqn : Path.normalize q = q := (hconfined.files files hfiles q hq).normal
    rwa [hpn, hqn] at hnormal
  · exact fun p hp => head?_eq_slash_iff_of_isCanonical hp

/-- The run from `//m/./n.js` asks for `//.js` and `//p.js` beside the script itself, which are all
at the other root. -/
theorem rootedScripts_canonical :
    IsCanonical 2 scriptN.path ∧ IsCanonical 2 [slash, slash, dot, 'j', 's']
      ∧ IsCanonical 2 [slash, slash, 'p', dot, 'j', 's'] := by
  obtain ⟨n, hn, _, _, hrun, _, _⟩ := resolve_paths_canonical lineSettings rootedScripts.reader
    [slash, slash, 'm', slash, dot, slash, 'n', dot, 'j', 's']
  obtain rfl : n = 2 := hn
  have hasked : askedPaths (resolve lineSettings rootedScripts.reader
      [slash, slash, 'm', slash, dot, slash, 'n', dot, 'j', 's']).trace
      = [scriptN.path, [slash, slash, dot, 'j', 's'], [slash, slash, 'p', dot, 'j', 's']] := rfl
  have hall := hrun.asked
  rw [hasked] at hall
  exact ⟨hall _ (by decide), hall _ (by decide), hall _ (by decide)⟩

end ImportClosure.Resolution
