import ImportClosure.Proofs.Confinement
import ImportClosure.Proofs.ExactReport
import ImportClosure.Proofs.Termination
/-!
What a run depends on of its storage.

A run asks its storage for the normal form of the entrypoint, and for each file that it takes and
whose text is accepted, for the candidates of the local specifiers: with the guessed suffixes in
turn, up to the first path that can be read. That is all (`LooksAlike`). Two storages that give the
same answers on these paths are the same to the run, whatever else they hold
(`resolve_depends_on_asked`). The paths are told by the run over the first storage alone; that the
run over the second one asks for the same is part of what is shown.
-/

namespace ImportClosure

/-- The answer to a path, as far as it is ever shown: the text, or in words why there is none. -/
def Reader.answer (r : Reader) (path : Text) : Except Text Text :=
  (r.read path).mapError ReadFailure.message

theorem Reader.agree_of_answer_eq {r r' : Reader} {path : Text}
    (h : r'.answer path = r.answer path) : r.Agree r' path := by
  unfold answer at h
  intro content
  cases hread : r.read path <;> cases hread' : r'.read path <;> rw [hread, hread'] at h
  · simp
  · exact absurd h nofun
  · exact absurd h nofun
  · rw [Except.ok.inj h]

namespace Resolution

open Candidate (asked attempts)

variable {s : Settings} {r r' : Reader} {e f : SourceFile} {entrypoint : Text} {v : Variant}
variable {m : Specifiers}

/-! ## One file -/

theorem lookupTrace_congr {paths : List Text} (h : ∀ q ∈ asked r paths, r.Agree r' q) :
    lookupTrace r' paths = lookupTrace r paths := by
  induction paths with
  | nil => rfl
  | cons path paths ih =>
    have hpath := h path List.mem_cons_self
    unfold lookupTrace
    cases hread : r.read path with
    | ok content => rw [(hpath content).2 hread]
    | error why =>
      cases hread' : r'.read path with
      | ok content =>
        rw [(hpath content).1 hread'] at hread
        cases hread
      | error why' =>
        -- the path is asked for in vain, so the look-up goes on
        have hnone : Candidate.readable? r path = none := by
          unfold Candidate.readable?
          rw [hread]
        dsimp only
        rw [ih]
        intro q hq
        apply h
        unfold asked
        rw [hnone]
        exact List.mem_cons_of_mem _ hq

/-- The storages agree on what is asked for when the candidates of a file are looked up. -/
def AgreeOnFile (s : Settings) (r r' : Reader) (f : SourceFile) : Prop :=
  ∀ v m, Parses s f v m → ∀ c ∈ candidates f.path m, ∀ q ∈ asked r (attempts v c), r.Agree r' q

theorem accepted_congr {path : Text} (before : List Event)
    (h : ∀ c ∈ candidates path m, ∀ q ∈ asked r (attempts v c), r.Agree r' q) :
    Examination.accepted s r' path v m before = .accepted s r path v m before := by
  have hfind : ∀ c ∈ candidates path m, Candidate.find? r' v c = Candidate.find? r v c :=
    fun c hc => Candidate.find?_congr (h c hc)
  unfold Examination.accepted
  congr 1
  · exact List.filter_congr fun c hc => by rw [hfind c hc]
  · exact List.filterMap_congr hfind
  · exact congrArg _ (List.flatMap_congr fun c hc => lookupTrace_congr (h c hc))

/-- What is found out about a file depends on what is asked for. -/
theorem examine_congr (h : AgreeOnFile s r r' f) : examine s r' f = examine s r f := by
  rcases parses_or_rejects_or s r f with ⟨v, m, hp⟩ | ⟨reason, hrejects⟩ | ⟨why, hwhy⟩
  · rw [examine_of_parses hp, examine_of_parses hp, accepted_congr _ (h v m hp)]
  · rw [examine_of_rejects hrejects, examine_of_rejects hrejects]
  · rw [hwhy]
    exact examine_eq_error_iff.2 (examine_eq_error_iff.1 hwhy)

/-! ## Whole runs -/

/-- What the run over `r` asks for, the storage `r'` answers in the same way. Why a candidate cannot
be read makes no difference to a run. -/
structure LooksAlike (s : Settings) (r r' : Reader) (entrypoint : Text) : Prop where
  /-- The storages answer alike on the entrypoint. -/
  entry : r'.answer (Path.normalize entrypoint) = r.answer (Path.normalize entrypoint)
  /-- They agree on the candidates of the files that the run takes. -/
  files : ∀ e, IsEntry r entrypoint e → ∀ f, Takes s r e f → AgreeOnFile s r r' f

namespace LooksAlike

theorem isEntry_iff (h : LooksAlike s r r' entrypoint) :
    IsEntry r' entrypoint e ↔ IsEntry r entrypoint e := by
  unfold IsEntry
  rw [Candidate.readable?_congr (Reader.agree_of_answer_eq h.entry)]

/-- The runs are the same, however long. -/
theorem run_eq (h : LooksAlike s r r' entrypoint) (he : IsEntry r entrypoint e) (n : Nat) :
    run s r' n (start e) = run s r n (start e) :=
  run_congr rfl (fun w hw f hf => examine_congr (h.files e he f ⟨w, hw, hf⟩)) n

/-- Where both runs come to their end, they come to the same end. -/
theorem resolve_eq (h : LooksAlike s r r' entrypoint) (hr : r.IsFinite) (hr' : r'.IsFinite)
    (he : IsEntry r entrypoint e) : resolve s r' entrypoint = resolve s r entrypoint := by
  obtain ⟨taken, _, _, hloop⟩ := exists_loop_resolve s hr he
  obtain ⟨taken', _, _, hloop'⟩ := exists_loop_resolve s hr' (h.isEntry_iff.2 he)
  -- the two storages bound the rounds differently, so a bound that is enough for both is taken
  have hrun := hloop.run_eq (Nat.le_max_left taken.length taken'.length)
  have hrun' := hloop'.run_eq (Nat.le_max_right taken.length taken'.length)
  rw [← hrun, ← hrun', h.run_eq he]

/-- Where there is no entry file, the runs end at once, for the same reason. -/
theorem outcome_eq_of_not_isEntry (h : LooksAlike s r r' entrypoint)
    (hnone : ∀ e, ¬ IsEntry r entrypoint e) :
    (resolve s r' entrypoint).outcome = (resolve s r entrypoint).outcome := by
  have hnone' : ∀ e, ¬ IsEntry r' entrypoint e := fun e he => hnone e (h.isEntry_iff.1 he)
  rcases isEntry_or_refused s r entrypoint with ⟨e, he⟩ | ⟨hv, heq⟩ | ⟨v, why, hv, hread, heq⟩ <;>
    rcases isEntry_or_refused s r' entrypoint with
      ⟨e', he'⟩ | ⟨hv', heq'⟩ | ⟨v', why', hv', hread', heq'⟩
  case inl.inl | inl.inr.inl | inl.inr.inr => exact absurd he (hnone e)
  case inr.inl.inl | inr.inr.inl => exact absurd he' (hnone' e')
  -- the extension tells a grammar or not, whatever the storage
  case inr.inl.inr.inr | inr.inr.inr.inl =>
    rw [hv] at hv'
    exact absurd hv' nofun
  case inr.inl.inr.inl => rw [heq, heq']
  case inr.inr.inr.inr =>
    have hmessage := h.entry
    unfold Reader.answer at hmessage
    rw [hread, hread'] at hmessage
    have hwhy : why'.message = why.message := Except.error.inj hmessage
    rw [heq, heq', hwhy]

end LooksAlike

/-! ## Storages that agree on what is asked for -/

theorem agreeOnFile_of_parses (hp : Parses s f v m)
    (h : ∀ c ∈ candidates f.path m, ∀ q ∈ asked r (attempts v c), r'.read q = r.read q) :
    AgreeOnFile s r r' f := by
  intro v' m' hp' c hc q hq content
  obtain ⟨rfl, rfl⟩ := hp.eq hp'
  rw [h c hc q hq]

/-- The script `k.ts` with the line `./b`. -/
def scriptK : SourceFile :=
  ⟨['k', Path.dot, 't', 's'], [Path.dot, Path.slash, 'b'], some .typescript⟩

/-- The script `k.ts` and the scripts that it needs. -/
def neededScripts : MemoryFiles :=
  MemoryFiles.empty.addAll ([scriptK, scriptA, scriptB].map SourceFile.entry)

/-- The same scripts among others. -/
def allScripts : MemoryFiles :=
  MemoryFiles.empty.addAll ([scriptC, scriptB, scriptK, fileF, scriptA, scriptD].map
    SourceFile.entry)

/-- **The footprint.** Two storages that look alike to a run make the same run: it starts from the
same file, and does the same in any number of rounds. So the outcomes are the same, be it files in
their order or an error with all that it says. Only where a storage does not list what it holds may
one run be given too few rounds to end. -/
theorem resolve_depends_on_asked (h : LooksAlike s r r' entrypoint) :
    (∀ e, IsEntry r entrypoint e →
        IsEntry r' entrypoint e ∧ ∀ n, run s r' n (start e) = run s r n (start e))
      ∧ ((r.IsFinite ∧ r'.IsFinite) ∨ (∀ e, ¬ IsEntry r entrypoint e) →
          (resolve s r' entrypoint).outcome = (resolve s r entrypoint).outcome) := by
  constructor
  · exact fun e he => ⟨h.isEntry_iff.2 he, h.run_eq he⟩
  · intro hcases
    by_cases hentry : ∃ e, IsEntry r entrypoint e
    · obtain ⟨e, he⟩ := hentry
      rcases hcases with ⟨hr, hr'⟩ | hnone
      · rw [h.resolve_eq hr hr' he]
      · exact absurd he (hnone e)
    · exact h.outcome_eq_of_not_isEntry fun e he => hentry ⟨e, he⟩

/-- The run from `k.ts` asks for `b.ts` in vain before it finds `b.js`, and comes to the same with
other scripts beside those. -/
theorem allScripts_outcome :
    (resolve lineSettings allScripts.reader scriptK.path).outcome
      = (resolve lineSettings neededScripts.reader scriptK.path).outcome := by
  have hclosed : ∀ g ∈ [scriptK, scriptA, scriptB],
      ∀ g' ∈ importedFiles lineSettings neededScripts.reader g,
        g' ∈ [scriptK, scriptA, scriptB] := by decide
  have halike : LooksAlike lineSettings neededScripts.reader allScripts.reader scriptK.path := by
    refine ⟨rfl, ?_⟩
    intro e he f hf
    obtain rfl : e = scriptK := he.stored.eq_of_path_eq rfl he.path_eq
    have hmem := (hf.reachable he.stored).mem_of_closed (by decide) hclosed
    simp only [List.mem_cons, List.not_mem_nil, or_false] at hmem
    rcases hmem with rfl | rfl | rfl
    · exact agreeOnFile_of_parses ⟨rfl, rfl⟩ (by decide)
    · exact agreeOnFile_of_parses ⟨rfl, rfl⟩ (by decide)
    · exact agreeOnFile_of_parses ⟨rfl, rfl⟩ (by decide)
  exact (resolve_depends_on_asked halike).2
    (Or.inl ⟨neededScripts.isFinite_reader, allScripts.isFinite_reader⟩)

end Resolution

end ImportClosure
