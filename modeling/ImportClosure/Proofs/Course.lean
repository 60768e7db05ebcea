import ImportClosure.Proofs.Rounds
/-!
The course of a run.

A run goes from walk to walk, a round at a time. `ComesTo` relates a walk to those that a run from
it comes through, however many rounds that takes, so it also speaks of runs that no bound on the
rounds would let end. Two things follow a run along its course: what one round keeps is kept
throughout, and two runs that find out the same about every file taken are the same run, event by
event (`run_congr`). Where a bounded run leaves its course, and with what, is told by `Stops`.
-/

namespace ImportClosure.Resolution

variable {s s' : Settings} {r r' : Reader} {e f file : SourceFile} {entrypoint : Text}
variable {w w' : Walk} {rest done : List SourceFile}

/-! ## From walk to walk -/

/-- A round leads from one walk to the next. -/
def Round (s : Settings) (r : Reader) (w w' : Walk) : Prop :=
  ∃ file rest, w.queue = file :: rest ∧ step s r w file rest = .ok w'

/-- A run from one walk comes to the other. -/
def ComesTo (s : Settings) (r : Reader) : Walk → Walk → Prop := Relation.ReflTransGen (Round s r)

/-- The run from the entry file `e` takes `f` from its queue. -/
def Takes (s : Settings) (r : Reader) (e f : SourceFile) : Prop :=
  ∃ w, ComesTo s r (start e) w ∧ w.queue.head? = some f

theorem ComesTo.refl : ComesTo s r w w := Relation.ReflTransGen.refl

theorem ComesTo.head {w₁ : Walk} (hround : Round s r w w₁) (h : ComesTo s r w₁ w') :
    ComesTo s r w w' :=
  Relation.ReflTransGen.head hround h

theorem ComesTo.tail {w₁ : Walk} (h : ComesTo s r w w₁) (hround : Round s r w₁ w') :
    ComesTo s r w w' :=
  Relation.ReflTransGen.tail h hround

/-- A walk that a run comes to has taken some files, and is what their being taken makes of it. -/
theorem ComesTo.underway (he : Candidate.Stored r e) (h : ComesTo s r (start e) w) :
    ∃ done, Underway s r e done w := by
  induction h with
  | refl => exact ⟨[], underway_start s r e⟩
  | tail _ hround ih =>
    obtain ⟨done, hunder⟩ := ih
    obtain ⟨file, rest, hq, hstep⟩ := hround
    -- a round that has succeeded is neither of the two kinds that fail
    rcases hunder.step_cases he hq with ⟨w', hok, hw'⟩ | ⟨_, herror, _⟩ | ⟨_, _, herror, _⟩
    · rw [hstep] at hok
      obtain rfl := Except.ok.inj hok
      exact ⟨_, hw'⟩
    · rw [hstep] at herror
      exact absurd herror nofun
    · rw [hstep] at herror
      exact absurd herror nofun

/-- What is taken is reachable. -/
theorem Takes.reachable (he : Candidate.Stored r e) (h : Takes s r e f) : Reachable s r e f := by
  obtain ⟨w, hw, hhead⟩ := h
  obtain ⟨done, hunder⟩ := hw.underway he
  exact hunder.reachable f (List.mem_append_right _ (List.mem_of_head? hhead))

/-- What a run comes to that stops at a walk. -/
inductive Stops (s : Settings) (r : Reader) (w : Walk) : Resolution → Prop
  /-- The queue is empty. -/
  | drained (hq : w.queue = []) : Stops s r w (finish w)
  /-- The next round fails. -/
  | failed {file : SourceFile} {rest : List SourceFile} {stop : Stop}
      (hq : w.queue = file :: rest) (hstep : step s r w file rest = .error stop) :
    Stops s r w ⟨.error stop.failure, stop.trace⟩
  /-- There are no more rounds to do. -/
  | unfinished (hq : w.queue ≠ []) : Stops s r w ⟨.error .unfinished, w.trace⟩

/-- A bounded run stops at a walk that it comes to. -/
theorem exists_stops (s : Settings) (r : Reader) (n : Nat) (w : Walk) :
    ∃ w', ComesTo s r w w' ∧ Stops s r w' (run s r n w) := by
  induction n generalizing w with
  | zero =>
    refine ⟨w, ComesTo.refl, ?_⟩
    cases hq : w.queue with
    | nil =>
      rw [run_of_nil hq]
      exact Stops.drained hq
    | cons file rest =>
      rw [run_zero_of_cons hq]
      exact Stops.unfinished (by rw [hq]; exact List.cons_ne_nil _ _)
  | succ n ih =>
    cases hq : w.queue with
    | nil =>
      rw [run_of_nil hq]
      exact ⟨w, ComesTo.refl, Stops.drained hq⟩
    | cons file rest =>
      rw [run_succ_of_cons hq]
      cases hstep : step s r w file rest with
      | error stop => exact ⟨w, ComesTo.refl, Stops.failed hq hstep⟩
      | ok w₁ =>
        obtain ⟨w', hcomes, hstops⟩ := ih w₁
        exact ⟨w', ComesTo.head ⟨file, rest, hq, hstep⟩ hcomes, hstops⟩

/-- Where there is no entry file, a run does not depend on its settings. -/
theorem resolve_eq_of_not_isEntry (h : ∀ e, ¬ IsEntry r entrypoint e) :
    resolve s' r entrypoint = resolve s r entrypoint := by
  unfold resolve
  dsimp only
  cases hv : Variant.ofPath? (Path.normalize entrypoint) with
  | none => rfl
  | some v =>
    dsimp only
    cases hread : r.read (Path.normalize entrypoint) with
    | error why => rfl
    | ok content =>
      have he : IsEntry r entrypoint ⟨Path.normalize entrypoint, content, some v⟩ :=
        ⟨Candidate.readable?_eq_some_iff.2 ⟨hread, rfl, hv.symm⟩, nofun⟩
      exact absurd he (h _)

/-! ## Runs that find out the same -/

theorem step_congr (hlimit : s'.maxFiles = s.maxFiles) (h : examine s' r' file = examine s r file) :
    step s' r' w file rest = step s r w file rest := by
  unfold step
  rw [h, hlimit]

/-- **The same run.** Two runs with one limit that find out the same about every file that the first
one takes do the same in every round. -/
theorem run_congr (hlimit : s'.maxFiles = s.maxFiles)
    (h : ∀ w', ComesTo s r w w' → ∀ f ∈ w'.queue.head?, examine s' r' f = examine s r f)
    (n : Nat) : run s' r' n w = run s r n w := by
  induction n generalizing w with
  | zero =>
    cases hq : w.queue with
    | nil => rw [run_of_nil hq, run_of_nil hq]
    | cons file rest => rw [run_zero_of_cons hq, run_zero_of_cons hq]
  | succ n ih =>
    cases hq : w.queue with
    | nil => rw [run_of_nil hq, run_of_nil hq]
    | cons file rest =>
      have hfile : file ∈ w.queue.head? := by
        rw [hq]
        exact rfl
      rw [run_succ_of_cons hq, run_succ_of_cons hq,
        step_congr hlimit (h w ComesTo.refl file hfile)]
      cases hstep : step s r w file rest with
      | error stop => rfl
      | ok w₁ =>
        exact ih fun w' hw' => h w' (ComesTo.head ⟨file, rest, hq, hstep⟩ hw')

end ImportClosure.Resolution
