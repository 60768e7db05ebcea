import ImportClosure.Proofs.JsonRoundTrip
import ImportClosure.Proofs.TextLines
import ImportClosure.Text.Quoted
/-!
What printed text is made of.

JSON is written in printable ASCII and line breaks, whatever the texts in it are made of
(`Json.IsWritten`). So what is written always has bytes (`Json.isAscii_print`), and what is written
on one line has nothing below U+0020 in it (`Json.IsWritten.isPrintable`). A quoted literal stays on
one line: a line feed in it is shown by its escape, and the escapes hold none
(`Text.lineFeed_not_mem_quoted`).
-/

namespace ImportClosure

/-! ## Hexadecimal digits -/

/-- What is written in hexadecimal digits is told by a digit alone. -/
theorem forall_mem_hexDigits {p : CodePoint → Prop} (h : ∀ k : Fin 16, p (hexDigit k.val))
    (width n : Nat) : ∀ c ∈ hexDigits width n, p c := by
  induction width generalizing n with
  | zero => exact List.forall_mem_nil _
  | succ width ih =>
    refine List.forall_mem_append.2 ⟨ih _, List.forall_mem_singleton.2 ?_⟩
    exact h ⟨n % 16, Nat.mod_lt n (by decide)⟩

namespace Text

variable {t u : Text}

/-! ## ASCII -/

/-- All code points are below U+0080. -/
def IsAscii (t : Text) : Prop := ∀ c ∈ t, c.val < 0x80

instance (t : Text) : Decidable t.IsAscii :=
  List.decidableBAll (fun c => (c : CodePoint).val < 0x80) t

/-- All code points are printable ASCII: from the blank to the one before U+007F. -/
def IsPrintable (t : Text) : Prop := ∀ c ∈ t, 0x20 ≤ c.val ∧ c.val < 0x7F

instance (t : Text) : Decidable t.IsPrintable :=
  List.decidableBAll (fun c => 0x20 ≤ (c : CodePoint).val ∧ c.val < 0x7F) t

theorem isPrintable_append : (t ++ u).IsPrintable ↔ t.IsPrintable ∧ u.IsPrintable :=
  List.forall_mem_append

theorem isPrintable_cons {c : CodePoint} :
    IsPrintable (c :: t) ↔ (0x20 ≤ c.val ∧ c.val < 0x7F) ∧ t.IsPrintable :=
  List.forall_mem_cons

theorem IsAscii.isEncodable (h : t.IsAscii) : t.IsEncodable := by
  intro c hc
  have hlt := h c hc
  rw [CodePoint.isSurrogate_eq_false_iff]
  omega

/-- No line ends within printable ASCII. -/
theorem IsPrintable.isOneLine (h : t.IsPrintable) : t.IsOneLine := by
  intro c hc
  have hrange := h c hc
  unfold CodePoint.isLineEnd
  simp only [Bool.or_eq_false_iff, Bool.and_eq_false_iff, decide_eq_false_iff_not,
    beq_eq_false_iff_ne]
  omega

theorem isPrintable_ofNat (n : Nat) : (ofNat n).IsPrintable := by
  intro c hc
  have hdigit := Json.isDigit_of_mem_ofNat hc
  unfold CodePoint.isDigit at hdigit
  rw [Bool.and_eq_true, decide_eq_true_eq, decide_eq_true_eq] at hdigit
  omega

theorem isPrintable_ofInt (i : Int) : (ofInt i).IsPrintable := by
  cases i with
  | ofNat n => exact isPrintable_ofNat n
  | negSucc n =>
    rw [Json.ofInt_negSucc]
    exact isPrintable_cons.2 ⟨by decide, isPrintable_ofNat _⟩

/-! ## Quoted literals -/

theorem lineFeed_not_mem_quotedCodePoint {quote : CodePoint} (hquote : quote ≠ '\n')
    (c : CodePoint) : CodePoint.ofChar '\n' ∉ quotedCodePoint quote c := by
  have hdigits : ∀ width n, CodePoint.ofChar '\n' ∉ hexDigits width n := fun width n h =>
    forall_mem_hexDigits (p := (· ≠ CodePoint.ofChar '\n')) (by decide) width n _ h rfl
  have hescape : ∀ (letter : CodePoint) (t : Text), letter ≠ '\n' → CodePoint.ofChar '\n' ∉ t →
      CodePoint.ofChar '\n' ∉ CodePoint.ofChar '\\' :: letter :: t := by
    intro letter t hletter ht
    rw [List.mem_cons, List.mem_cons, not_or, not_or]
    exact ⟨by decide, hletter.symm, ht⟩
  unfold quotedCodePoint
  split_ifs with hspecial hn
  · refine hescape c [] ?_ List.not_mem_nil
    rcases hspecial with rfl | rfl
    · exact hquote
    · decide
  · decide
  · decide
  · decide
  · exact fun h => hn (List.mem_singleton.1 h).symm
  · exact hescape _ _ (by decide) (hdigits 2 _)
  · exact hescape _ _ (by decide) (hdigits 4 _)
  · exact hescape _ _ (by decide) (hdigits 8 _)

/-- **One line.** A quoted literal has no line feed in it. -/
theorem lineFeed_not_mem_quoted (t : Text) : CodePoint.ofChar '\n' ∉ t.quoted := by
  have hquote : quoteFor t ≠ '\n' := by
    unfold quoteFor
    split_ifs <;> decide
  have hsingle : CodePoint.ofChar '\n' ∉ [quoteFor t] :=
    fun h => hquote (List.mem_singleton.1 h).symm
  unfold quoted
  dsimp only
  rw [List.mem_append, List.mem_append, not_or, not_or]
  refine ⟨⟨hsingle, ?_⟩, hsingle⟩
  intro h
  obtain ⟨c, -, hc⟩ := List.mem_flatMap.1 h
  exact lineFeed_not_mem_quotedCodePoint hquote c hc

end Text

namespace Json

open ImportClosure.Text (IsAscii IsPrintable isPrintable_append isPrintable_cons)

variable {layout : Layout} {items : List Json} {fields : List (Text × Json)} {j : Json}
variable {p : Text → Prop} {t u : Text} {c : CodePoint}

/-! ## JSON -/

theorem isPrintable_escapeUnit (n : Nat) : IsPrintable (escapeUnit n) := by
  refine isPrintable_cons.2 ⟨by decide, isPrintable_cons.2 ⟨by decide, ?_⟩⟩
  exact forall_mem_hexDigits (by decide) 4 n

theorem isPrintable_escapeCodePoint (c : CodePoint) : IsPrintable (escapeCodePoint c) := by
  unfold escapeCodePoint
  split_ifs with hspecial _ _ _ _ _ hplain
  · rcases hspecial with rfl | rfl <;> decide
  · decide
  · decide
  · decide
  · decide
  · decide
  · exact List.forall_mem_singleton.2 hplain
  · exact isPrintable_escapeUnit _
  · exact isPrintable_append.2 ⟨isPrintable_escapeUnit _, isPrintable_escapeUnit _⟩

theorem isPrintable_printText (t : Text) : IsPrintable (printText t) := by
  refine isPrintable_cons.2 ⟨by decide, isPrintable_append.2 ⟨?_, by decide⟩⟩
  intro c hc
  obtain ⟨d, -, hd⟩ := List.mem_flatMap.1 hc
  exact isPrintable_escapeCodePoint d c hd

/-- The text is made of printable ASCII and of what the layout puts between items. -/
def IsWritten (layout : Layout) (t : Text) : Prop :=
  ∀ c ∈ t, (0x20 ≤ c.val ∧ c.val < 0x7F) ∨ ∃ depth, c ∈ lineBreak layout depth

theorem isWritten_append :
    IsWritten layout (t ++ u) ↔ IsWritten layout t ∧ IsWritten layout u :=
  List.forall_mem_append

theorem isWritten_of_isPrintable (layout : Layout) (h : t.IsPrintable) : IsWritten layout t :=
  fun c hc => Or.inl (h c hc)

theorem isWritten_lineBreak (layout : Layout) (depth : Nat) :
    IsWritten layout (lineBreak layout depth) :=
  fun _ hc => Or.inr ⟨depth, hc⟩

theorem isWritten_separator (layout : Layout) (depth : Nat) :
    IsWritten layout (separator layout depth) := by
  cases layout with
  | none => exact isWritten_of_isPrintable none (by decide : IsPrintable [',', ' '])
  | some width => exact List.forall_mem_cons.2 ⟨Or.inl (by decide), isWritten_lineBreak _ depth⟩

theorem isWritten_printItems (depth : Nat)
    (h : ∀ j ∈ items, IsWritten layout (printAt layout depth j)) :
    IsWritten layout (printItems layout depth items) := by
  induction items with
  | nil => exact List.forall_mem_nil _
  | cons item items ih =>
    obtain ⟨hitem, hitems⟩ := List.forall_mem_cons.1 h
    unfold printItems
    simp only [isWritten_append]
    exact ⟨⟨isWritten_separator layout depth, hitem⟩, ih hitems⟩

theorem isWritten_printFields (depth : Nat)
    (h : ∀ f ∈ fields, IsWritten layout (printAt layout depth f.2)) :
    IsWritten layout (printFields layout depth fields) := by
  induction fields with
  | nil => exact List.forall_mem_nil _
  | cons field fields ih =>
    obtain ⟨hfield, hfields⟩ := List.forall_mem_cons.1 h
    have hname := isWritten_of_isPrintable layout (isPrintable_printText field.1)
    have hcolon := isWritten_of_isPrintable layout (by decide : IsPrintable [':', ' '])
    unfold printFields
    simp only [isWritten_append]
    exact ⟨⟨⟨⟨isWritten_separator layout depth, hname⟩, hcolon⟩, hfield⟩, ih hfields⟩

/-- A list is written in printable ASCII if its items are. -/
theorem isWritten_list (h : ∀ j ∈ items, ∀ depth, IsWritten layout (printAt layout depth j))
    (depth : Nat) : IsWritten layout (printAt layout depth (list items)) := by
  cases items with
  | nil => exact isWritten_of_isPrintable layout (by decide : IsPrintable ['[', ']'])
  | cons item items =>
    obtain ⟨hitem, hitems⟩ := List.forall_mem_cons.1 h
    have hend := isWritten_of_isPrintable layout (by decide : IsPrintable [']'])
    have hrest : IsWritten layout (printItems layout (depth + 1) items) :=
      isWritten_printItems _ fun j hj => hitems j hj _
    unfold printAt
    refine List.forall_mem_cons.2 ⟨Or.inl (by decide), ?_⟩
    change IsWritten layout _
    simp only [isWritten_append]
    exact ⟨⟨⟨⟨isWritten_lineBreak layout _, hitem _⟩, hrest⟩, isWritten_lineBreak layout _⟩, hend⟩

/-- An object is written in printable ASCII if its values are, whatever the names are. -/
theorem isWritten_object (h : ∀ f ∈ fields, ∀ depth, IsWritten layout (printAt layout depth f.2))
    (depth : Nat) : IsWritten layout (printAt layout depth (object fields)) := by
  cases fields with
  | nil => exact isWritten_of_isPrintable layout (by decide : IsPrintable ['\x7b', '\x7d'])
  | cons field fields =>
    obtain ⟨hfield, hfields⟩ := List.forall_mem_cons.1 h
    have hname := isWritten_of_isPrintable layout (isPrintable_printText field.1)
    have hcolon := isWritten_of_isPrintable layout (by decide : IsPrintable [':', ' '])
    have hend := isWritten_of_isPrintable layout (by decide : IsPrintable ['\x7d'])
    have hrest : IsWritten layout (printFields layout (depth + 1) fields) :=
      isWritten_printFields _ fun f hf => hfields f hf _
    unfold printAt
    refine List.forall_mem_cons.2 ⟨Or.inl (by decide), ?_⟩
    change IsWritten layout _
    simp only [isWritten_append]
    exact ⟨⟨⟨⟨⟨⟨isWritten_lineBreak layout _, hname⟩, hcolon⟩, hfield _⟩, hrest⟩,
      isWritten_lineBreak layout _⟩, hend⟩

theorem isWritten_printAt (h : j.IsPlain p) (layout : Layout) (depth : Nat) :
    IsWritten layout (printAt layout depth j) := by
  induction h generalizing depth with
  | null => exact isWritten_of_isPrintable layout (by decide : IsPrintable "null")
  | bool b =>
    cases b with
    | true => exact isWritten_of_isPrintable layout (by decide : IsPrintable "true")
    | false => exact isWritten_of_isPrintable layout (by decide : IsPrintable "false")
  | int i => exact isWritten_of_isPrintable layout (Text.isPrintable_ofInt i)
  | text _ => exact isWritten_of_isPrintable layout (isPrintable_printText _)
  | list _ ih => exact isWritten_list ih depth
  | object _ _ ih => exact isWritten_object ih depth

theorem IsWritten.isAscii (h : IsWritten layout t) : t.IsAscii := by
  intro c hc
  rcases h c hc with hprintable | ⟨depth, hbreak⟩
  · omega
  · -- a line break is made of blanks
    have hspace := isSpace_of_mem_lineBreak hbreak
    unfold isSpace at hspace
    simp only [Bool.or_eq_true, decide_eq_true_eq] at hspace
    rcases hspace with ((rfl | rfl) | rfl) | rfl <;> decide

/-- What stands on one line has nothing but printable ASCII in it. -/
theorem IsWritten.isPrintable (h : IsWritten none t) : t.IsPrintable := by
  intro c hc
  rcases h c hc with hprintable | ⟨depth, hbreak⟩
  · exact hprintable
  · exact absurd hbreak List.not_mem_nil

/-- **ASCII.** A value without floating-point numbers is written in ASCII. -/
theorem isAscii_print (h : j.IsPlain p) (layout : Layout) : IsAscii (print layout j) :=
  (isWritten_printAt h layout 0).isAscii

end Json

end ImportClosure
