import ImportClosure.Text.Blank
import Mathlib.Data.List.DropRight
/-!
Lines of a text, and texts without blanks around them.

`Text.splitLines` cuts a text at all its line ends, of which there are many kinds; a text without
any is left alone (`splitLines_of_isOneLine`), and of every other one the first line is what stands
before the first of them (`head?_splitLines`). The text without the blanks around it is told by what
was cut off and by its two ends (`IsCoreOf`). Every line end is a blank, but not every blank a line
end; that is why the first line of such a text is never empty (`IsCoreOf.exists_firstLine`), and why
blanks may stand at its end.
-/

namespace ImportClosure

theorem CodePoint.isBlank_of_isLineEnd {c : CodePoint} (h : c.isLineEnd = true) :
    c.isBlank = true := by
  unfold isLineEnd at h
  unfold isBlank
  simp only [Bool.or_eq_true, Bool.and_eq_true, decide_eq_true_eq, beq_iff_eq] at h ⊢
  omega

namespace Text

variable {t u w : Text} {c : CodePoint}

/-! ## Lines -/

/-- There is no line end in the text. -/
def IsOneLine (t : Text) : Prop := ∀ c ∈ t, c.isLineEnd = false

instance (t : Text) : Decidable t.IsOneLine :=
  List.decidableBAll (fun c => (c : CodePoint).isLineEnd = false) t

theorem isOneLine_append : (t ++ u).IsOneLine ↔ t.IsOneLine ∧ u.IsOneLine :=
  List.forall_mem_append

theorem isOneLine_cons : IsOneLine (c :: t) ↔ c.isLineEnd = false ∧ t.IsOneLine :=
  List.forall_mem_cons

theorem IsOneLine.lineFeed_not_mem (h : t.IsOneLine) : CodePoint.ofChar '\n' ∉ t :=
  fun hmem => absurd (h _ hmem) (by decide)

/-- The lines of a text without their ends. A carriage return before a line feed ends nothing, the
line feed does. There is no empty line after the last line end. -/
def splitLines : Text → List Text
  | [] => []
  | c :: cs =>
    if c = '\r' ∧ cs.head? = some (CodePoint.ofChar '\n') then splitLines cs
    else if c.isLineEnd then [] :: splitLines cs
    else match splitLines cs with
      | [] => [[c]]
      | line :: lines => (c :: line) :: lines

/-- What is no line end is the first code point of the first line. -/
theorem splitLines_cons_of_not_isLineEnd (hc : c.isLineEnd = false) :
    splitLines (c :: t) = match splitLines t with
      | [] => [[c]]
      | line :: lines => (c :: line) :: lines := by
  have hreturn : ¬ (c = '\r' ∧ t.head? = some (CodePoint.ofChar '\n')) := by
    rintro ⟨rfl, -⟩
    exact absurd hc (by decide)
  rw [splitLines, if_neg hreturn, hc, if_neg Bool.false_ne_true]

theorem splitLines_cons_of_isLineEnd (hc : c.isLineEnd = true) :
    splitLines (c :: t) = splitLines t ∧ t.head? = some (CodePoint.ofChar '\n')
      ∨ splitLines (c :: t) = [] :: splitLines t := by
  rw [splitLines, hc, if_pos rfl]
  by_cases hreturn : c = '\r' ∧ t.head? = some (CodePoint.ofChar '\n')
  · rw [if_pos hreturn]
    exact Or.inl ⟨rfl, hreturn.2⟩
  · rw [if_neg hreturn]
    exact Or.inr rfl

theorem splitLines_of_isOneLine (hne : t ≠ []) (h : t.IsOneLine) : splitLines t = [t] := by
  induction t with
  | nil => exact absurd rfl hne
  | cons c t ih =>
    obtain ⟨hc, ht⟩ := isOneLine_cons.1 h
    rw [splitLines_cons_of_not_isLineEnd hc]
    by_cases hnil : t = []
    · rw [hnil]
      rfl
    · rw [ih hnil ht]

/-- The first of the lines is what stands before the first line end. -/
theorem head?_splitLines (hne : t ≠ []) : (splitLines t).head? = some t.firstLine := by
  induction t with
  | nil => exact absurd rfl hne
  | cons c t ih =>
    unfold firstLine
    cases hc : c.isLineEnd with
    | true =>
      rw [List.takeWhile_cons_of_neg (by simp [hc])]
      rcases splitLines_cons_of_isLineEnd (t := t) hc with ⟨heq, hhead⟩ | heq
      · -- the line feed that follows ends the same line
        obtain ⟨t, rfl⟩ := List.head?_eq_some_iff.1 hhead
        rw [heq, ih (List.cons_ne_nil _ _)]
        rfl
      · rw [heq]
        rfl
    | false =>
      rw [splitLines_cons_of_not_isLineEnd hc, List.takeWhile_cons_of_pos (by simp [hc])]
      by_cases hnil : t = []
      · rw [hnil]
        rfl
      · obtain ⟨lines, hlines⟩ := List.head?_eq_some_iff.1 (ih hnil)
        rw [hlines]
        rfl

/-- The first line of a text is the longest beginning of it that is one line. -/
theorem prefix_firstLine_iff : u <+: t.firstLine ↔ u <+: t ∧ u.IsOneLine := by
  unfold firstLine
  constructor
  · intro h
    refine ⟨h.trans (List.takeWhile_prefix _), fun c hc => ?_⟩
    have hmem := List.mem_takeWhile_imp (h.subset hc)
    rwa [Bool.not_eq_true'] at hmem
  · rintro ⟨⟨v, rfl⟩, hone⟩
    rw [List.takeWhile_append_of_pos fun c hc => by rw [hone c hc, Bool.not_false]]
    exact List.prefix_append _ _

/-! ## Blanks at the ends -/

/-- The text `u` is `t` without the blanks at its two ends. -/
structure IsCoreOf (t u : Text) : Prop where
  /-- Nothing but blanks is cut off. -/
  cut : ∃ before after, t = before ++ u ++ after ∧ (∀ c ∈ before, c.isBlank = true)
    ∧ ∀ c ∈ after, c.isBlank = true
  /-- There is no blank at the beginning. -/
  head : ∀ c ∈ u.head?, c.isBlank = false
  /-- There is no blank at the end. -/
  last : ∀ c ∈ u.getLast?, c.isBlank = false

theorem head?_dropWhile_isBlank (t : Text) :
    ∀ c ∈ (t.dropWhile CodePoint.isBlank).head?, c.isBlank = false := by
  intro c hc
  have hhead := List.head?_dropWhile_not CodePoint.isBlank t
  rw [hc] at hhead
  exact hhead

theorem isCoreOf_strip (t : Text) : t.IsCoreOf t.strip := by
  have hafter : t.strip ++ (t.dropWhile CodePoint.isBlank).rtakeWhile CodePoint.isBlank
      = t.dropWhile CodePoint.isBlank := List.rdropWhile_append_rtakeWhile
  refine ⟨⟨t.takeWhile CodePoint.isBlank,
    (t.dropWhile CodePoint.isBlank).rtakeWhile CodePoint.isBlank, ?_, ?_, ?_⟩, ?_, ?_⟩
  · rw [List.append_assoc, hafter, List.takeWhile_append_dropWhile]
  · exact fun c hc => List.mem_takeWhile_imp hc
  · exact fun c hc => List.mem_rtakeWhile_imp hc
  · intro c hc
    obtain ⟨rest, hrest⟩ := List.head?_eq_some_iff.1 hc
    refine head?_dropWhile_isBlank t c ?_
    rw [← hafter, hrest]
    rfl
  · unfold strip dropEndWhile
    rw [List.getLast?_reverse]
    exact head?_dropWhile_isBlank _

/-- A text that is empty without the blanks around it is made of blanks. -/
theorem IsCoreOf.eq_nil_iff (h : t.IsCoreOf u) : u = [] ↔ ∀ c ∈ t, c.isBlank = true := by
  obtain ⟨before, after, rfl, hbefore, hafter⟩ := h.cut
  constructor
  · rintro rfl
    rw [List.append_nil]
    exact List.forall_mem_append.2 ⟨hbefore, hafter⟩
  · intro hall
    by_contra hne
    obtain ⟨c, rest, rfl⟩ := List.exists_cons_of_ne_nil hne
    have hc : c.isBlank = true := hall c (by simp)
    rw [h.head c rfl] at hc
    cases hc

/-- Without the blanks around it, a text that is not empty begins with a line that is not. -/
theorem IsCoreOf.exists_firstLine (h : t.IsCoreOf u) (hne : u ≠ []) :
    ∃ c rest, u.firstLine = c :: rest ∧ c.isBlank = false := by
  obtain ⟨c, rest, rfl⟩ := List.exists_cons_of_ne_nil hne
  have hc : c.isBlank = false := h.head c rfl
  have hline : c.isLineEnd = false := by
    rw [← Bool.not_eq_true]
    intro hline
    rw [CodePoint.isBlank_of_isLineEnd hline] at hc
    cases hc
  unfold firstLine
  rw [List.takeWhile_cons_of_pos (by rw [hline, Bool.not_false])]
  exact ⟨c, _, rfl, hc⟩

end Text

end ImportClosure
