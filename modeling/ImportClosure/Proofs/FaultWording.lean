import ImportClosure.Proofs.FirstFault
import ImportClosure.Proofs.PrintedText
/-!
The wording of a syntax error.

There are four ways to word an error (`FaultWording`), and the text tells which one was taken,
whatever is quoted in it (`FaultWording.form_eq_of_text_eq`). Which one is taken is told by the node
that the search for the first error finds (`FaultForm.Fits`). What is quoted of a node that was not
expected is the beginning of its text without the blanks around it, and as much of it as there is on
one line, up to forty code points (`IsSnippetOf`); since every line end is a blank, this is never
empty. So the wording is one line, if the kinds of the nodes are (`describeFault_exact`).
-/

namespace ImportClosure

/-! ## Wordings -/

/-- A place in a text, line and column counted from one. -/
def placeText (line column : Nat) : Text :=
  "line " ++ Text.ofNat line ++ ", column " ++ Text.ofNat column

/-- What is said of an error. -/
inductive FaultWording where
  /-- There is one. -/
  | unknown
  /-- A node of this kind had to be supplied at this place. -/
  | missing (kind : Text) (line column : Nat)
  /-- A text that begins in this way did not parse at this place. -/
  | unexpected (token : Text) (line column : Nat)
  /-- There is one at this place. -/
  | bare (line column : Nat)

/-- A way to word an error. -/
inductive FaultForm where
  /-- Without a place. -/
  | unknown
  /-- With what is missing. -/
  | missing
  /-- With what was not expected. -/
  | unexpected
  /-- With nothing but the place. -/
  | bare
deriving DecidableEq

namespace FaultWording

/-- The wording as a text. -/
def text : FaultWording → Text
  | unknown => "Syntax error"
  | missing kind line column =>
    "Syntax error: missing '" ++ kind ++ "' at " ++ placeText line column
  | unexpected token line column =>
    "Syntax error: unexpected '" ++ token ++ "' at " ++ placeText line column
  | bare line column => "Syntax error at " ++ placeText line column

/-- The way in which it is worded. -/
def form : FaultWording → FaultForm
  | unknown => .unknown
  | missing .. => .missing
  | unexpected .. => .unexpected
  | bare .. => .bare

/-- What is quoted. -/
def quoted : FaultWording → Text
  | missing kind _ _ => kind
  | unexpected token _ _ => token
  | unknown | bare .. => []

variable {w w' : FaultWording}

/-- The fifteenth code point is another one in each form. -/
def mark : FaultForm → Option CodePoint
  | .unknown => none
  | .missing => some 'm'
  | .unexpected => some 'u'
  | .bare => some 't'

theorem getElem?_text (w : FaultWording) : w.text[14]? = mark w.form := by
  cases w <;> rfl

/-- **Forms.** No text is worded in two ways. -/
theorem form_eq_of_text_eq (h : w.text = w'.text) : w.form = w'.form := by
  -- whatever is quoted stands after the code point that tells the forms apart
  have hmark : mark w.form = mark w'.form := by
    rw [← getElem?_text, ← getElem?_text, h]
  generalize w.form = f, w'.form = f' at hmark
  revert hmark
  cases f <;> cases f' <;> decide

theorem text_ne_nil (w : FaultWording) : w.text ≠ [] := by
  cases w <;> exact List.cons_ne_nil _ _

theorem isOneLine_placeText (line column : Nat) : (placeText line column).IsOneLine := by
  unfold placeText
  simp only [Text.isOneLine_append]
  exact ⟨⟨⟨by decide, (Text.isPrintable_ofNat line).isOneLine⟩, by decide⟩,
    (Text.isPrintable_ofNat column).isOneLine⟩

/-- A wording is one line if what is quoted is. -/
theorem isOneLine_text (h : w.quoted.IsOneLine) : w.text.IsOneLine := by
  cases w with
  | unknown => exact (by decide : Text.IsOneLine "Syntax error")
  | missing kind line column =>
    unfold text
    simp only [Text.isOneLine_append]
    exact ⟨⟨⟨by decide, h⟩, by decide⟩, isOneLine_placeText line column⟩
  | unexpected token line column =>
    unfold text
    simp only [Text.isOneLine_append]
    exact ⟨⟨⟨by decide, h⟩, by decide⟩, isOneLine_placeText line column⟩
  | bare line column =>
    exact Text.isOneLine_append.2 ⟨by decide, isOneLine_placeText line column⟩

end FaultWording

/-- The text is worded in this way. -/
def FaultForm.Has (form : FaultForm) (t : Text) : Prop :=
  ∃ w : FaultWording, w.form = form ∧ t = w.text

theorem FaultForm.has_text_iff {form : FaultForm} {w : FaultWording} :
    form.Has w.text ↔ w.form = form := by
  constructor
  · rintro ⟨w', rfl, hw⟩
    exact FaultWording.form_eq_of_text_eq hw
  · exact fun h => ⟨w, h, rfl⟩

/-! ## What is quoted -/

/-- The token is the longest beginning of a text that is one line and has no more than forty code
points. -/
structure IsSnippetOf (core token : Text) : Prop where
  /-- The text begins with it. -/
  begins : token <+: core
  /-- It is one line. -/
  isOneLine : token.IsOneLine
  /-- It is not too long. -/
  length_le : token.length ≤ 40
  /-- No other such beginning is longer. -/
  longest : ∀ u : Text, u <+: core → u.IsOneLine → u.length ≤ 40 → u <+: token

theorem isSnippetOf_firstLine (core : Text) : IsSnippetOf core (core.firstLine.take 40) := by
  have htake : core.firstLine.take 40 <+: core.firstLine := List.take_prefix 40 _
  obtain ⟨hbegins, hone⟩ := Text.prefix_firstLine_iff.1 htake
  refine ⟨hbegins, hone, List.length_take_le 40 _, ?_⟩
  intro u hu huline hulen
  exact List.prefix_take_iff.2 ⟨Text.prefix_firstLine_iff.2 ⟨hu, huline⟩, hulen⟩

/-! ## The node that is found -/

open ImportClosure.SyntaxNode (documentOrder inContext)

variable {root n : SyntaxNode} {form : FaultForm} {core token : Text}

/-- What decides how the first error of a tree is worded. -/
def FaultForm.Fits (root : SyntaxNode) : FaultForm → Prop
  | .unknown => root.firstFault? = none
  | .missing => ∃ n, root.firstFault? = some n ∧ n.isMissing = true
  | .unexpected => ∃ n, root.firstFault? = some n ∧ n.isMissing = false
    ∧ ∃ c ∈ n.text, c.isBlank = false
  | .bare => ∃ n, root.firstFault? = some n ∧ n.isMissing = false
    ∧ ∀ c ∈ n.text, c.isBlank = true

namespace SyntaxNode

theorem mem_documentOrder_of_firstFault? (h : root.firstFault? = some n) :
    n ∈ root.documentOrder := by
  have hfind : ((inContext [] root).find? isWithinReach).map Prod.snd = root.firstFault? :=
    map_find?_inContext (List.forall_mem_nil _) root
  rw [h, Option.map_eq_some_iff] at hfind
  obtain ⟨x, hx, rfl⟩ := hfind
  exact List.mem_map_of_mem (List.mem_of_find?_eq_some hx)

theorem describeFault_of_none (h : root.firstFault? = none) :
    root.describeFault = FaultWording.unknown.text := by
  unfold describeFault
  rw [h]
  rfl

theorem describeFault_of_missing (h : root.firstFault? = some n) (hm : n.isMissing = true) :
    root.describeFault
      = (FaultWording.missing (Text.ofString n.kind) (n.row + 1) (n.column + 1)).text := by
  unfold describeFault
  rw [h]
  dsimp only
  rw [if_pos hm]
  rfl

/-- The first line of what was not expected is quoted, if there is a line. -/
theorem describeFault_of_not_missing (h : root.firstFault? = some n)
    (hm : n.isMissing = false) :
    root.describeFault = match n.text.strip.splitLines with
      | [] => (FaultWording.bare (n.row + 1) (n.column + 1)).text
      | line :: _ =>
        (FaultWording.unexpected (line.take 40) (n.row + 1) (n.column + 1)).text := by
  unfold describeFault snippet
  rw [h]
  dsimp only
  rw [hm, if_neg Bool.false_ne_true]
  by_cases hnil : n.text.strip = []
  · rw [hnil]
    rfl
  · -- the first line is not empty, so that something is left of it after it was cut
    obtain ⟨lines, hlines⟩ := List.head?_eq_some_iff.1 (Text.head?_splitLines hnil)
    obtain ⟨c, rest, hfirst, -⟩ := (Text.isCoreOf_strip n.text).exists_firstLine hnil
    rw [hlines, hfirst]
    rfl

theorem describeFault_of_blank (h : root.firstFault? = some n) (hm : n.isMissing = false)
    (hblank : ∀ c ∈ n.text, c.isBlank = true) :
    root.describeFault = (FaultWording.bare (n.row + 1) (n.column + 1)).text := by
  rw [describeFault_of_not_missing h hm, (Text.isCoreOf_strip n.text).eq_nil_iff.2 hblank]
  rfl

/-- Of a text that is not blank, something is quoted. -/
theorem exists_snippet_of_not_blank (h : root.firstFault? = some n) (hm : n.isMissing = false)
    (hblank : ∃ c ∈ n.text, c.isBlank = false) :
    ∃ core token, n.text.IsCoreOf core ∧ IsSnippetOf core token
      ∧ (∃ c rest, token = c :: rest ∧ c.isBlank = false)
      ∧ root.describeFault
        = (FaultWording.unexpected token (n.row + 1) (n.column + 1)).text := by
  have hcore := Text.isCoreOf_strip n.text
  have hne : n.text.strip ≠ [] := by
    intro hnil
    obtain ⟨c, hc, hfalse⟩ := hblank
    rw [hcore.eq_nil_iff.1 hnil c hc] at hfalse
    cases hfalse
  obtain ⟨lines, hlines⟩ := List.head?_eq_some_iff.1 (Text.head?_splitLines hne)
  obtain ⟨c, rest, hfirst, hc⟩ := hcore.exists_firstLine hne
  refine ⟨_, _, hcore, isSnippetOf_firstLine _, ⟨c, rest.take 39, ?_, hc⟩, ?_⟩
  · rw [hfirst]
    rfl
  · rw [describeFault_of_not_missing h hm, hlines]

/-- The error is worded in a form that fits, and what is quoted is the kind of a node or one
line. -/
theorem exists_wording (root : SyntaxNode) : ∃ w : FaultWording, root.describeFault = w.text
    ∧ w.form.Fits root
    ∧ (w.quoted.IsOneLine ∨ ∃ n ∈ root.documentOrder, w.quoted = Text.ofString n.kind) := by
  cases h : root.firstFault? with
  | none => exact ⟨_, describeFault_of_none h, h, Or.inl (List.forall_mem_nil _)⟩
  | some n =>
    cases hm : n.isMissing with
    | true =>
      exact ⟨_, describeFault_of_missing h hm, ⟨n, h, hm⟩,
        Or.inr ⟨n, mem_documentOrder_of_firstFault? h, rfl⟩⟩
    | false =>
      by_cases hblank : ∀ c ∈ n.text, c.isBlank = true
      · exact ⟨_, describeFault_of_blank h hm hblank, ⟨n, h, hm, hblank⟩,
          Or.inl (List.forall_mem_nil _)⟩
      · push Not at hblank
        simp only [ne_eq, Bool.not_eq_true] at hblank
        obtain ⟨core, token, -, htoken, -, hd⟩ := exists_snippet_of_not_blank h hm hblank
        exact ⟨_, hd, ⟨n, h, hm, hblank⟩, Or.inl htoken.isOneLine⟩

/-- The form for what the search comes to. -/
def formFor : Option SyntaxNode → FaultForm
  | none => .unknown
  | some n =>
    if n.isMissing then .missing
    else if n.text.all CodePoint.isBlank then .bare
    else .unexpected

theorem eq_formFor_of_fits (h : form.Fits root) : form = formFor root.firstFault? := by
  cases form with
  | unknown =>
    have hnone : root.firstFault? = none := h
    rw [hnone]
    rfl
  | missing =>
    obtain ⟨n, hn, hm⟩ := h
    rw [hn, formFor, if_pos hm]
  | unexpected =>
    obtain ⟨n, hn, hm, c, hc, hblank⟩ := h
    have hnot : ¬ n.text.all CodePoint.isBlank = true := by
      intro hall
      rw [List.all_eq_true.1 hall c hc] at hblank
      cases hblank
    rw [hn, formFor, hm, if_neg Bool.false_ne_true, if_neg hnot]
  | bare =>
    obtain ⟨n, hn, hm, hblank⟩ := h
    rw [hn, formFor, hm, if_neg Bool.false_ne_true, if_pos (List.all_eq_true.2 hblank)]

/-- No two forms fit one tree. -/
theorem fits_unique {form' : FaultForm} (h : form.Fits root) (h' : form'.Fits root) :
    form = form' :=
  (eq_formFor_of_fits h).trans (eq_formFor_of_fits h').symm

theorem has_describeFault_iff : form.Has root.describeFault ↔ form.Fits root := by
  obtain ⟨w, hd, hfits, -⟩ := exists_wording root
  rw [hd, FaultForm.has_text_iff]
  constructor
  · rintro rfl
    exact hfits
  · exact fun h => fits_unique hfits h

/-- **Wordings.** If the kinds of the nodes hold no line end, the first error of a tree is worded on
one line, in exactly one of four forms: without a place if no error is found, with the kind of the
node that is found if it is missing, with the beginning of its text if that is not blank, and with
nothing but the place otherwise. The place is the one where the node starts, counted from one. What
is quoted of a text begins with something that is no blank, and it is the longest beginning of the
text without blanks around it that is one line and has no more than forty code points. -/
theorem describeFault_exact (root : SyntaxNode)
    (hkinds : ∀ n ∈ root.documentOrder, (Text.ofString n.kind).IsOneLine) :
    root.describeFault.splitLines = [root.describeFault]
      ∧ (∃! form : FaultForm, form.Has root.describeFault)
      ∧ (∀ form : FaultForm, form.Has root.describeFault ↔ form.Fits root)
      ∧ ∀ n, root.firstFault? = some n →
        (n.isMissing = true → root.describeFault
          = (FaultWording.missing (Text.ofString n.kind) (n.row + 1) (n.column + 1)).text)
        ∧ (n.isMissing = false → (∃ c ∈ n.text, c.isBlank = false) →
          ∃ core token, n.text.IsCoreOf core ∧ IsSnippetOf core token
            ∧ (∃ c rest, token = c :: rest ∧ c.isBlank = false)
            ∧ root.describeFault
              = (FaultWording.unexpected token (n.row + 1) (n.column + 1)).text)
        ∧ (n.isMissing = false → (∀ c ∈ n.text, c.isBlank = true) →
          root.describeFault = (FaultWording.bare (n.row + 1) (n.column + 1)).text) := by
  obtain ⟨w, hd, hfits, hquoted⟩ := exists_wording root
  refine ⟨?_, ⟨w.form, has_describeFault_iff.2 hfits, ?_⟩, fun _ => has_describeFault_iff, ?_⟩
  · -- only what is quoted could hold a line end, and kinds are assumed to hold none
    have hone : w.quoted.IsOneLine := by
      rcases hquoted with hone | ⟨n, hn, heq⟩
      · exact hone
      · rw [heq]
        exact hkinds n hn
    rw [hd]
    exact Text.splitLines_of_isOneLine w.text_ne_nil (FaultWording.isOneLine_text hone)
  · exact fun form hform => fits_unique (has_describeFault_iff.1 hform) hfits
  · exact fun n h => ⟨describeFault_of_missing h, exists_snippet_of_not_blank h,
      describeFault_of_blank h⟩

/-- A text that was not expected: blanks, two lines with a byte that is not UTF-8 and a vertical
tab between them, and one more blank. -/
def strayText : SyntaxNode :=
  ⟨"ERROR", some [0x20, 0x0D, 0x0A, 0x66, 0xFF, 0x3D, 0x0B, 0x3B, 0x09], none, true, false, true,
    2, 4, []⟩

/-- Of the two lines the first one is quoted. -/
theorem strayText_worded :
    (∀ n ∈ (bare "program" true false true [strayText]).documentOrder,
        (Text.ofString n.kind).IsOneLine)
      ∧ (bare "program" true false true [strayText]).describeFault.splitLines
        = ["Syntax error: unexpected 'f\uFFFD=' at line 3, column 5"] := by
  have hkinds : ∀ n ∈ (bare "program" true false true [strayText]).documentOrder,
      (Text.ofString n.kind).IsOneLine := by decide +kernel
  refine ⟨hkinds, (describeFault_exact _ hkinds).1.trans ?_⟩
  decide +kernel

end SyntaxNode

end ImportClosure
