import ImportClosure.Proofs.Course
import ImportClosure.Proofs.ExactReport
/-!
Specifiers in any order.

A source may name the same things in another order, or more than once. Its specifiers are registered
in two sets, and these do not tell the difference: what is registered is told by the specifiers that
occur and are not empty (`registerAll_eq`). Everything that a run reports in some order comes from
such a set in ascending order, so a run does not tell the difference either
(`resolve_ignores_specifier_order`).
-/

namespace ImportClosure

/-! ## What is registered -/

namespace Specifiers

variable {m : Specifiers} {found found' : List (Option Text)} {t : Text}

/-- The specifiers that name files, or those that name packages. -/
def side (m : Specifiers) (isLocal : Bool) : TextSet := if isLocal then m.files else m.packages

theorem ext_side {m' : Specifiers} (h : ∀ isLocal, m.side isLocal = m'.side isLocal) : m = m' := by
  obtain ⟨files, packages⟩ := m
  obtain ⟨files', packages'⟩ := m'
  obtain rfl : files = files' := h true
  obtain rfl : packages = packages' := h false
  rfl

theorem side_register {u : Text} (hne : u ≠ []) (isLocal : Bool) :
    (m.register (some u)).side isLocal
      = if u.isLocalSpecifier = isLocal then (m.side isLocal).insert u else m.side isLocal := by
  unfold register
  dsimp only
  rw [if_neg hne]
  cases u.isLocalSpecifier <;> cases isLocal <;> rfl

/-- A specifier is registered on its own side, if it is one. -/
theorem mem_side_register {specifier : Option Text} {isLocal : Bool} :
    t ∈ (m.register specifier).side isLocal
      ↔ t ∈ m.side isLocal ∨ specifier = some t ∧ t ≠ [] ∧ t.isLocalSpecifier = isLocal := by
  cases specifier with
  | none => simp [register]
  | some u =>
    by_cases hempty : u = []
    · have hsame : m.register (some u) = m := if_pos hempty
      rw [hsame]
      constructor
      · exact Or.inl
      · rintro (h | ⟨hu, hne, -⟩)
        · exact h
        · exact absurd (Option.some.inj hu ▸ hempty) hne
    · rw [side_register hempty]
      split
      · rename_i hside
        rw [TextSet.mem_insert]
        constructor
        · rintro (rfl | h)
          · exact Or.inr ⟨rfl, hempty, hside⟩
          · exact Or.inl h
        · rintro (h | ⟨hu, -, -⟩)
          · exact Or.inr h
          · exact Or.inl (Option.some.inj hu).symm
      · -- the specifier belongs on the other side
        rename_i hside
        constructor
        · exact Or.inl
        · rintro (h | ⟨hu, -, ht⟩)
          · exact h
          · exact absurd (Option.some.inj hu ▸ ht) hside

theorem mem_side_registerAll {isLocal : Bool} :
    t ∈ (m.registerAll found).side isLocal
      ↔ t ∈ m.side isLocal ∨ some t ∈ found ∧ t ≠ [] ∧ t.isLocalSpecifier = isLocal := by
  induction found generalizing m with
  | nil => simp [registerAll]
  | cons specifier found ih =>
    have hcons : m.registerAll (specifier :: found) = (m.register specifier).registerAll found :=
      rfl
    rw [hcons, ih, mem_side_register, List.mem_cons, eq_comm (a := some t), or_and_right, or_assoc]

/-- **What is registered.** Where the same specifiers occur, in whatever order and however often, the
same ones are registered. -/
theorem registerAll_eq (h : ∀ t ≠ [], some t ∈ found ↔ some t ∈ found') :
    m.registerAll found = m.registerAll found' := by
  refine ext_side fun isLocal => TextSet.ext_mem fun t => ?_
  rw [mem_side_registerAll, mem_side_registerAll]
  refine or_congr_right ?_
  constructor
  · rintro ⟨hmem, hne, hside⟩
    exact ⟨(h t hne).1 hmem, hne, hside⟩
  · rintro ⟨hmem, hne, hside⟩
    exact ⟨(h t hne).2 hmem, hne, hside⟩

end Specifiers

namespace Resolution

variable {s : Settings} {r : Reader} {entrypoint : Text}
variable {extract : Text → Variant → Except Text.Unencodable Extraction}

/-! ## What is read -/

/-- Two readings of one text come to the same: they fail alike, they refuse the text for one reason,
whatever they had found of it by then, or they register specifiers of which the same ones are not
empty. -/
inductive ReadAlike : Except Text.Unencodable Extraction → Except Text.Unencodable Extraction → Prop
  /-- The text cannot be handed to a parser. -/
  | failed (why : Text.Unencodable) : ReadAlike (.error why) (.error why)
  /-- The text is refused. -/
  | refused (m m' : Specifiers) (reason : Text) :
    ReadAlike (.ok ⟨m, some reason⟩) (.ok ⟨m', some reason⟩)
  /-- The text is accepted. -/
  | registered {found found' : List (Option Text)}
      (h : ∀ t ≠ [], some t ∈ found ↔ some t ∈ found') :
    ReadAlike (.ok (.found (Specifiers.none.registerAll found)))
      (.ok (.found (Specifiers.none.registerAll found')))

namespace ReadAlike

variable {x x' : Except Text.Unencodable Extraction} {m : Specifiers}

theorem accepted (h : ReadAlike x x') (hx : x = .ok ⟨m, none⟩) : x' = .ok ⟨m, none⟩ := by
  cases h with
  | failed why => exact hx
  | refused m₁ m' reason => cases hx
  | registered hfound => rw [← hx, Specifiers.registerAll_eq hfound]

theorem exists_refused {reason : Text} (h : ReadAlike x x') (hx : x = .ok ⟨m, some reason⟩) :
    ∃ m', x' = .ok ⟨m', some reason⟩ := by
  cases h with
  | failed why => cases hx
  | refused m₁ m' reason' =>
    cases hx
    exact ⟨m', rfl⟩
  | registered hfound => cases hx

theorem error {why : Text.Unencodable} (h : ReadAlike x x') (hx : x = .error why) :
    x' = .error why := by
  cases h with
  | failed why' => exact hx
  | refused m₁ m' reason => cases hx
  | registered hfound => cases hx

end ReadAlike

/-- The same is found out about a file. -/
theorem examine_eq_of_readAlike
    (h : ∀ content v, ReadAlike (s.extract content v) (extract content v)) (f : SourceFile) :
    examine { s with extract } r f = examine s r f := by
  rcases parses_or_rejects_or s r f with ⟨v, m, hp⟩ | ⟨reason, hrejects⟩ | ⟨why, hwhy⟩
  · have hp' : Parses { s with extract } f v m := ⟨hp.1, (h f.content v).accepted hp.2⟩
    rw [examine_of_parses hp, examine_of_parses hp']
    rfl
  · have hrejects' : Rejects { s with extract } f reason := by
      refine hrejects.imp_right ?_
      rintro ⟨v, m, hv, hx⟩
      obtain ⟨m', hx'⟩ := (h f.content v).exists_refused hx
      exact ⟨v, m', hv, hx'⟩
    rw [examine_of_rejects hrejects, examine_of_rejects hrejects']
  · obtain ⟨v, hv, hx⟩ := examine_eq_error_iff.1 hwhy
    rw [hwhy]
    exact examine_eq_error_iff.2 ⟨v, hv, (h f.content v).error hx⟩

/-! ## Whole runs -/

/-- The specifiers of `lineSettings`, from the last line to the first and all over again, with an
absent one and an empty one before them. -/
def shuffledLines (content : Text) (_ : Variant) : Except Text.Unencodable Extraction :=
  let lines := content.splitOn '\n'
  .ok (.found (Specifiers.none.registerAll
    (none :: some [] :: (lines.reverse ++ lines).map some)))

theorem readAlike_shuffledLines (content : Text) (v : Variant) :
    ReadAlike (lineSettings.extract content v) (shuffledLines content v) := by
  refine ReadAlike.registered fun t ht => ?_
  simp [ht]

/-- **The order of specifiers.** Let the texts be read in another way that comes to the same, the
order and the repetitions of specifiers apart. Then a run does the same, event by event, and has the
same outcome: the files in their order, or the same error with all that it says in its order. -/
theorem resolve_ignores_specifier_order
    (h : ∀ content v, ReadAlike (s.extract content v) (extract content v)) :
    resolve { s with extract } r entrypoint = resolve s r entrypoint := by
  by_cases hentry : ∃ e, IsEntry r entrypoint e
  · obtain ⟨e, he⟩ := hentry
    have hlimit : ({ s with extract } : Settings).maxFiles = s.maxFiles := rfl
    rw [he.resolve_eq, he.resolve_eq]
    exact run_congr hlimit (fun _ _ f _ => examine_eq_of_readAlike h f) r.paths.length
  · exact resolve_eq_of_not_isEntry fun e he => hentry ⟨e, he⟩

/-- The report about `d.js` is the same, however its lines are shuffled. -/
theorem reportD_shuffled :
    (resolve { lineSettings with extract := shuffledLines } faultyScripts.reader
      scriptD.path).outcome = .error (.reported (.faulty reportD)) := by
  have hrun : (resolve lineSettings faultyScripts.reader scriptD.path).outcome
      = .error (.reported (.faulty reportD)) := rfl
  rw [resolve_ignores_specifier_order readAlike_shuffledLines]
  exact hrun

end Resolution

end ImportClosure
