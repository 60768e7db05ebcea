import ImportClosure.Proofs.MappingKeys
import ImportClosure.Yaml.Load
/-!
What is relied on of a loader.

A loader may be anything that makes something of a text. Three things are relied on where what it
does is not enough (`Loader.IsLawful`): the mappings that it makes have no text as a key twice, a
text that is not well-formed is refused, whatever is taken for well-formed, and the loader does not
fail before it has seen something. `Yaml.loader` is such a loader (`Yaml.isLawful_loader`).
-/

namespace ImportClosure

/-! ## Results -/

section Results

variable {α β ε ε' : Type} {r : Except ε α} {a : α} {b : β}

theorem mapError_eq_ok_iff {f : ε → ε'} : r.mapError f = .ok a ↔ r = .ok a := by
  cases r with
  | error why => exact iff_of_false nofun nofun
  | ok b => rw [Except.mapError, Except.ok.injEq, Except.ok.injEq]

theorem map_eq_ok_iff {f : α → β} : r.map f = .ok b ↔ ∃ a, r = .ok a ∧ f a = b := by
  cases r with
  | error why => simp [Except.map]
  | ok a => simp [Except.map]

/-- What comes of two steps comes of the second one, after the first. -/
theorem exists_of_bind_eq_ok {f : α → Except ε β} (h : r >>= f = .ok b) :
    ∃ a, r = .ok a ∧ f a = .ok b := by
  cases r with
  | error why => cases h
  | ok a => exact ⟨a, rfl, h⟩

end Results

/-! ## Laws -/

/-- What is relied on of a loader, for these texts being well-formed. -/
structure Loader.IsLawful (loader : Loader) (IsWellFormed : Text → Prop) : Prop where
  /-- No mapping that is loaded has a text as the key of two entries. -/
  keysDiffer : ∀ path t entries, loader.load path t = .ok (.mapping entries) →
    Value.KeysDiffer entries
  /-- A text that is not well-formed is refused. -/
  refused : ∀ path t, ¬IsWellFormed t → ∃ why, loader.load path t = .error (.refused why)
  /-- Where the first bytes of a file are no text, the loader comes to them before it fails. -/
  unseen : ∀ path content e, Utf8.decode content = .error e → e.first = 0 →
    loader.early? path content = none

namespace Yaml

variable {ε α : Type} {tag t : Text} {node : Node} {items : List Meaning}
  {own : List (Meaning × Meaning)} {content : Content} {entries : List (Value × Value)}

/-! ## What is a mapping -/

theorem map_ne_mapping {f : α → Value} (hf : ∀ a, f a ≠ .mapping entries) (r : Except ε α) :
    r.map f ≠ .ok (.mapping entries) := by
  intro h
  obtain ⟨a, -, ha⟩ := map_eq_ok_iff.1 h
  exact hf a ha

theorem Scalar.readTimestamp_ne_mapping : readTimestamp t ≠ .ok (.mapping entries) := by
  intro h
  unfold readTimestamp at h
  split at h
  case h_1 => cases h
  case h_2 =>
    obtain ⟨_, -, h⟩ := exists_of_bind_eq_ok h
    cases h
  case h_3 =>
    obtain ⟨_, -, h⟩ := exists_of_bind_eq_ok h
    obtain ⟨_, -, h⟩ := exists_of_bind_eq_ok h
    obtain ⟨_, -, h⟩ := exists_of_bind_eq_ok h
    cases h

theorem ofScalar_ne_mapping : ofScalar tag t ≠ .ok (.mapping entries) := by
  intro h
  unfold ofScalar at h
  split_ifs at h
  case pos => cases h
  case pos => cases h
  case pos => exact map_ne_mapping nofun _ h
  case pos => exact map_ne_mapping nofun _ h
  case pos => exact map_ne_mapping nofun _ h
  case pos => exact map_ne_mapping nofun _ h
  case pos => exact Scalar.readTimestamp_ne_mapping h

theorem ofStandIn_ne_mapping : ofStandIn tag t ≠ .ok (.mapping entries) := by
  intro h
  unfold ofStandIn at h
  split_ifs at h
  exact ofScalar_ne_mapping h

theorem Making.later_eq_ok_iff {m : Making α} {a : α} : later m = .ok a ↔ m = .ok a :=
  mapError_eq_ok_iff

theorem Meaning.ofItems_ne_mapping : ofItems tag items ≠ .ok (.mapping entries) := by
  intro h
  unfold ofItems at h
  split_ifs at h
  · exact map_ne_mapping nofun _ (Making.later_eq_ok_iff.1 h)
  · exact map_ne_mapping nofun _ (Making.later_eq_ok_iff.1 h)
  · cases h
  · cases h

/-! ## The keys of a mapping -/

theorem Meaning.keysDiffer_fill (h : fill content = .ok entries) : Value.KeysDiffer entries := by
  obtain ⟨made, -, rfl⟩ := map_eq_ok_iff.1 h
  exact Value.KeysDiffer.foldl_insertEntry List.Pairwise.nil

/-- A mapping comes of its entries if it has the tag of one, and of nothing else. -/
theorem Meaning.keysDiffer_of_ofEntries (h : ofEntries tag own = .ok (.mapping entries)) :
    Value.KeysDiffer entries := by
  unfold ofEntries at h
  dsimp only at h
  split_ifs at h
  · obtain ⟨made, hmade, heq⟩ := map_eq_ok_iff.1 (Making.later_eq_ok_iff.1 h)
    cases heq
    obtain ⟨content, -, hfill⟩ := exists_of_bind_eq_ok hmade
    exact keysDiffer_fill hfill
  · exact absurd (Making.later_eq_ok_iff.1 h) (map_ne_mapping nofun _)
  · cases h
  · cases htext : textOf? own with
    | some t =>
      rw [htext] at h
      exact absurd (mapError_eq_ok_iff.1 h) ofStandIn_ne_mapping
    | none =>
      rw [htext] at h
      cases h

theorem Node.keysDiffer_of_value (h : node.meaning.value = .ok (.mapping entries)) :
    Value.KeysDiffer entries := by
  cases node with
  | scalar tag t isPlain => exact absurd (mapError_eq_ok_iff.1 h) ofScalar_ne_mapping
  | sequence tag items => exact absurd h Meaning.ofItems_ne_mapping
  | mapping tag nodes => exact Meaning.keysDiffer_of_ofEntries h
  | enclosing isSequence => cases h

/-! ## The loader -/

theorem load_eq_ok_iff {t : Text} {v : Value} : load t = .ok v ↔ read t = .ok v :=
  mapError_eq_ok_iff

theorem keysDiffer_of_load {t : Text} (h : load t = .ok (.mapping entries)) :
    Value.KeysDiffer entries := by
  rw [load_eq_ok_iff] at h
  unfold read at h
  obtain ⟨root?, -, h⟩ := exists_of_bind_eq_ok h
  cases root? with
  | none => cases h
  | some root => exact Node.keysDiffer_of_value (mapError_eq_ok_iff.1 h)

/-- The text is not refused. -/
def IsWellFormed (t : Text) : Prop := ∀ why, load t ≠ .error (.refused why)

/-- The loader that runs is one of those that the results about configurations are about. -/
theorem isLawful_loader : loader.IsLawful IsWellFormed where
  keysDiffer _ _ _ h := keysDiffer_of_load h
  refused _ _ h := Classical.not_forall_not.1 h
  unseen _ _ _ _ _ := rfl

end Yaml

end ImportClosure
