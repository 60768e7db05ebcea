import ImportClosure.Proofs.Encoding
import Mathlib.Data.List.Infix
/-!
Pairs of surrogates.

A text may hold the two halves of a pair as code points of their own, and its UTF-16 units do not
tell it from the text with the one code point that they stand for. That text is `Text.joinPairs`: it
has the same units (`units_joinPairs`), and it is the text itself exactly if no first half is
directly followed by a second one (`joinPairs_eq_self_iff`). A text of nothing but code points below
the surrogates comes of no other text (`joinPairs_eq_iff`).
-/

namespace ImportClosure

namespace CodePoint

variable {c d : CodePoint}

theorem isHighSurrogate_iff : c.isHighSurrogate = true ↔ 0xD800 ≤ c.val ∧ c.val ≤ 0xDBFF := by
  unfold isHighSurrogate
  rw [Bool.and_eq_true, decide_eq_true_eq, decide_eq_true_eq]

theorem isLowSurrogate_iff : c.isLowSurrogate = true ↔ 0xDC00 ≤ c.val ∧ c.val ≤ 0xDFFF := by
  unfold isLowSurrogate
  rw [Bool.and_eq_true, decide_eq_true_eq, decide_eq_true_eq]

/-- The code point that the two halves of a pair stand for. -/
def ofPair (c d : CodePoint) : CodePoint :=
  ofNat (0x10000 + (c.val - 0xD800) * 0x400 + (d.val - 0xDC00))

/-- The UTF-16 units of a code point; a surrogate is one itself. -/
def units (c : CodePoint) : List Nat :=
  if c.val < 0x10000 then [c.val]
  else [0xD800 + (c.val - 0x10000) / 0x400, 0xDC00 + (c.val - 0x10000) % 0x400]

end CodePoint

namespace Text

variable {t u done : Text} {c d : CodePoint}

/-- The UTF-16 units of a text. -/
def units (t : Text) : List Nat := t.flatMap CodePoint.units

/-- A first half of a pair is directly followed by a second one. -/
def HasPair (t : Text) : Prop :=
  ∃ c d, [c, d] <:+: t ∧ c.isHighSurrogate = true ∧ d.isLowSurrogate = true

/-- Adds a code point to a text, last first, joining the two halves of a pair. -/
def pushHalf (done : Text) (c : CodePoint) : Text :=
  match done with
  | [] => [c]
  | last :: before =>
    if last.isHighSurrogate && c.isLowSurrogate then CodePoint.ofPair last c :: before
    else c :: done

/-- The text in which each pair of surrogates is the code point that it stands for. -/
def joinPairs (t : Text) : Text := (t.foldl pushHalf []).reverse

/-! ## One code point more -/

/-- A code point is added as it is unless it completes a pair. -/
theorem pushHalf_of_not_pair
    (h : ∀ last ∈ done.head?, last.isHighSurrogate = true → c.isLowSurrogate = false) :
    pushHalf done c = c :: done := by
  cases done with
  | nil => rfl
  | cons last before =>
    unfold pushHalf
    dsimp only
    cases hlast : last.isHighSurrogate with
    | false => rw [Bool.false_and, if_neg Bool.false_ne_true]
    | true => rw [h last rfl hlast, Bool.and_false, if_neg Bool.false_ne_true]

theorem pushHalf_of_not_low (hc : c.isLowSurrogate = false) : pushHalf done c = c :: done :=
  pushHalf_of_not_pair fun _ _ _ => hc

theorem pushHalf_of_pair (hc : c.isHighSurrogate = true) (hd : d.isLowSurrogate = true) :
    pushHalf (c :: done) d = CodePoint.ofPair c d :: done := by
  unfold pushHalf
  dsimp only
  rw [hc, hd, Bool.and_true, if_pos rfl]

theorem isLowSurrogate_eq_false (hc : c.isSurrogate = false) : c.isLowSurrogate = false := by
  have hrange := CodePoint.isSurrogate_eq_false_iff.1 hc
  rw [← Bool.not_eq_true, CodePoint.isLowSurrogate_iff]
  omega

/-- A first half of a pair is no second half. -/
theorem isLowSurrogate_of_high (hc : c.isHighSurrogate = true) : c.isLowSurrogate = false := by
  have hrange := CodePoint.isHighSurrogate_iff.1 hc
  rw [← Bool.not_eq_true, CodePoint.isLowSurrogate_iff]
  omega

/-- Whatever is added, it is added as it is, or it completes a pair. -/
theorem pushHalf_cases (done : Text) (c : CodePoint) :
    pushHalf done c = c :: done ∨ ∃ last before, done = last :: before
      ∧ last.isHighSurrogate = true ∧ c.isLowSurrogate = true := by
  cases done with
  | nil => exact Or.inl rfl
  | cons last before =>
    cases hlast : last.isHighSurrogate with
    | false =>
      refine Or.inl (pushHalf_of_not_pair ?_)
      rintro _ ⟨⟩ hhigh
      rw [hlast] at hhigh
      cases hhigh
    | true =>
      cases hc : c.isLowSurrogate with
      | false => exact Or.inl (pushHalf_of_not_low hc)
      | true => exact Or.inr ⟨last, before, rfl, hlast, rfl⟩

/-! ## Units -/

theorem units_append (t u : Text) : (t ++ u).units = t.units ++ u.units := List.flatMap_append

theorem units_singleton (c : CodePoint) : units [c] = c.units := List.append_nil _

/-- The code point that a pair stands for has the units of the pair. -/
theorem units_pair (hc : c.isHighSurrogate = true) (hd : d.isLowSurrogate = true) :
    (CodePoint.ofPair c d).units = c.units ++ d.units := by
  have hcRange := CodePoint.isHighSurrogate_iff.1 hc
  have hdRange := CodePoint.isLowSurrogate_iff.1 hd
  have hval : (CodePoint.ofPair c d).val
      = 0x10000 + (c.val - 0xD800) * 0x400 + (d.val - 0xDC00) := CodePoint.val_ofNat (by omega)
  have hfirst : 0xD800 + ((c.val - 0xD800) * 0x400 + (d.val - 0xDC00)) / 0x400 = c.val := by omega
  have hsecond : 0xDC00 + ((c.val - 0xD800) * 0x400 + (d.val - 0xDC00)) % 0x400 = d.val := by omega
  unfold CodePoint.units
  rw [hval, if_neg (by omega), if_pos (by omega), if_pos (by omega), Nat.add_assoc,
    Nat.add_sub_cancel_left, hfirst, hsecond]
  rfl

theorem units_pushHalf (done : Text) (c : CodePoint) :
    units (pushHalf done c).reverse = units done.reverse ++ c.units := by
  rcases pushHalf_cases done c with h | ⟨last, before, rfl, hlast, hc⟩
  · rw [h, List.reverse_cons, units_append, units_singleton]
  · rw [pushHalf_of_pair hlast hc, List.reverse_cons, units_append, units_singleton,
      units_pair hlast hc, List.reverse_cons, units_append, units_singleton, List.append_assoc]

/-- **Units.** Joining pairs does not change the units. -/
theorem units_joinPairs (t : Text) : t.joinPairs.units = t.units := by
  have hfoldl : ∀ (t done : Text),
      units (t.foldl pushHalf done).reverse = units done.reverse ++ t.units := by
    intro t
    induction t with
    | nil => exact fun done => (List.append_nil _).symm
    | cons c t ih =>
      intro done
      rw [List.foldl_cons, ih, units_pushHalf, List.append_assoc]
      rfl
  exact hfoldl t []

/-! ## Texts without pairs -/

theorem joinPairs_of_not_hasPair (h : ¬t.HasPair) : t.joinPairs = t := by
  have hfoldl : ∀ (t done : Text), ¬HasPair (done.reverse ++ t) →
      t.foldl pushHalf done = t.reverse ++ done := by
    intro t
    induction t with
    | nil => exact fun _ _ => rfl
    | cons c t ih =>
      intro done hdone
      have hc : pushHalf done c = c :: done := by
        rcases pushHalf_cases done c with hc | ⟨last, before, rfl, hlast, hlow⟩
        · exact hc
        · -- a half that was added last and its other half stand side by side in the whole text
          refine absurd ⟨last, c, ⟨before.reverse, t, ?_⟩, hlast, hlow⟩ hdone
          simp
      rw [List.foldl_cons, hc, ih, List.reverse_cons, List.append_assoc]
      · rfl
      · rwa [List.reverse_cons, List.append_assoc]
  unfold joinPairs
  rw [hfoldl t [] h, List.append_nil, List.reverse_reverse]

theorem length_foldl_pushHalf_le (t done : Text) :
    (t.foldl pushHalf done).length ≤ done.length + t.length := by
  induction t generalizing done with
  | nil => exact Nat.le_refl _
  | cons c t ih =>
    have hone : (pushHalf done c).length ≤ done.length + 1 := by
      rcases pushHalf_cases done c with h | ⟨last, before, rfl, hlast, hc⟩
      · rw [h, List.length_cons]
      · rw [pushHalf_of_pair hlast hc, List.length_cons, List.length_cons]
        omega
    have hrest := ih (pushHalf done c)
    rw [List.foldl_cons, List.length_cons]
    omega

/-- Of a pair that is joined, one code point is left. -/
theorem length_joinPairs_lt (h : t.HasPair) : t.joinPairs.length < t.length := by
  obtain ⟨c, d, ⟨before, after, rfl⟩, hc, hd⟩ := h
  have hbefore := length_foldl_pushHalf_le before []
  have hafter := length_foldl_pushHalf_le after (CodePoint.ofPair c d :: before.foldl pushHalf [])
  -- the first half is added as it is, whatever stands before it, and the second half finds it
  unfold joinPairs
  rw [List.length_reverse, List.foldl_append, List.foldl_append, List.foldl_cons, List.foldl_cons,
    List.foldl_nil, pushHalf_of_not_low (isLowSurrogate_of_high hc), pushHalf_of_pair hc hd]
  simp only [List.length_append, List.length_cons, List.length_nil] at hbefore hafter ⊢
  omega

/-- **Pairs.** Joining pairs changes exactly the texts that hold one. -/
theorem joinPairs_eq_self_iff : t.joinPairs = t ↔ ¬t.HasPair := by
  constructor
  · intro h hpair
    have hlt := length_joinPairs_lt hpair
    rw [h] at hlt
    exact Nat.lt_irrefl _ hlt
  · exact joinPairs_of_not_hasPair

/-- A text that has bytes has no pairs of surrogates. -/
theorem joinPairs_of_isEncodable (h : t.IsEncodable) : t.joinPairs = t := by
  refine joinPairs_of_not_hasPair ?_
  rintro ⟨c, d, hinfix, -, hd⟩
  have hmem : d ∈ t := hinfix.subset (by simp)
  rw [isLowSurrogate_eq_false (h d hmem)] at hd
  cases hd

/-! ## Texts that are spelled in one way -/

theorem length_le_units (t : Text) : t.length ≤ t.units.length := by
  induction t with
  | nil => exact Nat.le_refl _
  | cons c t ih =>
    have hunits : units (c :: t) = c.units ++ units t := rfl
    have hone : 1 ≤ c.units.length := by
      unfold CodePoint.units
      split_ifs <;> exact Nat.succ_pos _
    rw [hunits, List.length_append, List.length_cons]
    omega

/-- Where each code point is one unit, there are as many units. -/
theorem length_units (h : ∀ c ∈ t, c.val < 0x10000) : t.units.length = t.length := by
  induction t with
  | nil => rfl
  | cons c t ih =>
    obtain ⟨hc, ht⟩ := List.forall_mem_cons.1 h
    have hunits : units (c :: t) = c.units ++ units t := rfl
    have hone : c.units = [c.val] := if_pos hc
    rw [hunits, hone, List.singleton_append, List.length_cons, ih ht, List.length_cons]

/-- A text without surrogates, and without anything that a pair could stand for, comes of no other
text. -/
theorem joinPairs_eq_iff (h : ∀ c ∈ u, c.val < 0xD800) : t.joinPairs = u ↔ t = u := by
  constructor
  · intro ht
    have hpair : ¬t.HasPair := by
      intro hpair
      -- joining a pair would leave fewer code points than there are units
      have hlt := length_joinPairs_lt hpair
      have hle := length_le_units t
      have hunits := units_joinPairs t
      rw [ht] at hlt hunits
      have hlength := length_units fun c hc => (h c hc).trans (by decide)
      rw [hunits] at hlength
      omega
    rw [← ht, joinPairs_of_not_hasPair hpair]
  · rintro rfl
    refine joinPairs_of_isEncodable fun c hc => ?_
    rw [CodePoint.isSurrogate_eq_false_iff]
    exact Or.inl (h c hc)

end Text

end ImportClosure
