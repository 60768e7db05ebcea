import ImportClosure.Proofs.DiskRun
import ImportClosure.Proofs.Spelling
import ImportClosure.Proofs.StaticImports
import ImportClosure.Proofs.StepwisePaths
import ImportClosure.Proofs.SurrogatePairs
/-!
Spellings of a code point of two units.

A code point above `FFFF` has two UTF-16 units. A literal can hold the code point itself, its number
in braces, or the numbers of its two units, and for a language whose strings are made of units the
three are one string. Reading goes by code points and joins nothing: from the first two spellings
comes the code point, and from the third come the two surrogates, which have the same units but are
another text (`unescape_twoUnits`).

The difference goes on to the files. A surrogate that is not cancelled by a later `..` stands in the
candidate (`mem_ofSpecifier`), and no file on a disk has a name with one.
-/

namespace ImportClosure

/-! ## What stays of a specifier -/

namespace Path

variable {rooted : Bool} {done : List Text} {p t : Text} {x : CodePoint}

/-- A code point stands in one component, and the components behind that one are those behind the
code point. -/
theorem exists_splitOn_append (hx : x ≠ slash) (p t : Text) :
    ∃ before component, (p ++ x :: t).splitOn slash
      = before ++ component :: (t.splitOn slash).tail ∧ x ∈ component := by
  induction p with
  | nil =>
    obtain ⟨w, ws, hw⟩ := List.exists_cons_of_ne_nil (List.splitOn_ne_nil slash t)
    rw [← Text.splitOn_eq] at hw
    refine ⟨[], x :: w, ?_, List.mem_cons_self⟩
    rw [List.nil_append, List.nil_append, Text.splitOn, if_neg hx, hw]
    rfl
  | cons c p ih =>
    obtain ⟨before, component, hsplit, hmem⟩ := ih
    rw [List.cons_append, Text.splitOn, hsplit]
    by_cases hc : c = slash
    · exact ⟨[] :: before, component, by rw [if_pos hc]; rfl, hmem⟩
    · rw [if_neg hc]
      cases before with
      | nil => exact ⟨[], c :: component, rfl, List.mem_cons_of_mem c hmem⟩
      | cons w ws => exact ⟨(c :: w) :: ws, component, rfl, hmem⟩

/-- Only two dots take something off the stack. -/
theorem suffix_foldl_pushComponent {components : List Text} (h : [dot, dot] ∉ components) :
    done <:+ components.foldl (pushComponent rooted) done := by
  induction components generalizing done with
  | nil => exact List.suffix_rfl
  | cons c cs ih =>
    obtain ⟨hc, hcs⟩ := not_or.1 (mt List.mem_cons.2 h)
    rw [List.foldl_cons]
    refine List.IsSuffix.trans ?_ (ih hcs)
    unfold pushComponent
    rw [if_neg (Ne.symm hc)]
    split_ifs
    · exact List.suffix_rfl
    · exact List.suffix_cons c done

/-- A code point that is no dot stands in a component on the stack, if no two dots come later. -/
theorem exists_mem_pushPath (rooted : Bool) (done : List Text) (p : Text) (hslash : x ≠ slash)
    (hdot : x ≠ dot)
    (ht : [dot, dot] ∉ (t.splitOn slash).tail) :
    ∃ component ∈ pushPath rooted done (p ++ x :: t), x ∈ component := by
  obtain ⟨before, component, hsplit, hmem⟩ := exists_splitOn_append hslash p t
  -- the component with the code point is a name, and nothing behind it takes it off again
  have hname : component ≠ [] ∧ component ≠ [dot] ∧ component ≠ [dot, dot] := by
    refine ⟨?_, ?_, ?_⟩ <;> rintro rfl <;> simp_all
  unfold pushPath
  rw [hsplit, List.foldl_append, List.foldl_cons]
  generalize before.foldl (pushComponent rooted) done = done'
  have hpush : pushComponent rooted done' component = component :: done' := by
    unfold pushComponent
    rw [if_neg (by simp [hname.1, hname.2.1]), if_neg hname.2.2]
  rw [hpush]
  exact ⟨component, (suffix_foldl_pushComponent ht).subset List.mem_cons_self, hmem⟩

theorem mem_render {n : Nat} {components : List Text} {component : Text}
    (h : component ∈ components) (hx : x ∈ component) : x ∈ render n components := by
  have hjoin : x ∈ Text.joinWith [slash] components := Text.mem_joinWith h hx
  have hall : x ∈ List.replicate n slash ++ Text.joinWith [slash] components :=
    List.mem_append_right _ hjoin
  unfold render
  split
  case h_1 hnil =>
    rw [hnil] at hall
    exact absurd hall List.not_mem_nil
  case h_2 => exact hall

end Path

namespace Candidate

open ImportClosure.Path (slash dot)

variable {before after specifier : Text} {x : CodePoint}

/-- **What stays.** A code point of a specifier stands in the candidate, if no two dots come
later. -/
theorem mem_ofSpecifier (hslash : x ≠ slash) (hdot : x ≠ dot)
    (hafter : [dot, dot] ∉ (after.splitOn slash).tail) (directory : Text) :
    x ∈ ofSpecifier directory (before ++ x :: after) := by
  rw [ofSpecifier_eq_render]
  obtain ⟨component, hmem, hx⟩ := Path.exists_mem_pushPath
    (decide (0 < Path.rootSlashes directory))
    (Path.pushPath (decide (0 < Path.rootSlashes directory)) [] directory)
    before hslash hdot hafter
  exact Path.mem_render (List.mem_reverse.2 hmem) hx

/-- No candidate with a surrogate leads to a file on a disk. -/
theorem find?_of_mem_surrogate {directory : Text} (hx : x.isSurrogate = true)
    (hmem : x ∈ ofSpecifier directory specifier) (d : Disk) (limit : Option Int) (v : Variant) :
    find? (d.reader limit) v (ofSpecifier directory specifier) = none := by
  rw [find?_eq_none_iff]
  intro path hpath content hread
  have hnormal := isNormal_of_mem_attempts (isNormal_ofSpecifier directory specifier) hpath
  have hxpath : x ∈ path := by
    rcases mem_attempts_cases hpath with rfl | ⟨e, -, -, rfl⟩
    · exact hmem
    · exact List.mem_append_left e hmem
  have hencodable := Disk.isEncodable_path_of_read hnormal hread x hxpath
  rw [hx] at hencodable
  cases hencodable

end Candidate

/-! ## Three spellings -/

/-- The literal covers this raw text and a code point on either side of it. -/
def SyntaxNode.Quotes (literal : SyntaxNode) (raw : Text) : Prop :=
  ∃ q q', literal.text = q :: (raw ++ [q'])

theorem SyntaxNode.Quotes.stringValue {literal : SyntaxNode} {raw : Text}
    (h : literal.Quotes raw) : literal.stringValue = Literal.unescape raw := by
  obtain ⟨q, q', htext⟩ := h
  unfold SyntaxNode.stringValue
  rw [htext, List.tail_cons, List.dropLast_concat]

/-- A string and a template without substitutions are read alike. -/
theorem SyntaxNode.Quotes.specifier_eq {literal : SyntaxNode} {raw specifier : Text}
    (h : literal.Quotes raw) (hspecifier : literal.argumentSpecifier? = some specifier) :
    specifier = Literal.unescape raw := by
  rw [← (argumentSpecifier?_eq_some_iff.1 hspecifier).2, h.stringValue]

namespace Literal

variable {c : CodePoint} {before after raw : Text}

/-- Raw text for a code point: itself, or its number in braces. -/
inductive SpellsWhole (c : CodePoint) : Text → Prop
  | raw : SpellsWhole c [c]
  | braced (ds : List HexDigit) (h : HexDigit.number ds = c.val) :
    SpellsWhole c (Piece.inBraces ds)

/-- Raw text for the two units of a code point: the numbers of both. -/
inductive SpellsUnits (c : CodePoint) : Text → Prop
  | units (d₁ d₂ d₃ d₄ e₁ e₂ e₃ e₄ : HexDigit)
      (h : c.units = [HexDigit.number [d₁, d₂, d₃, d₄], HexDigit.number [e₁, e₂, e₃, e₄]]) :
    SpellsUnits c ((Piece.unit d₁ d₂ d₃ d₄).spelling ++ (Piece.unit e₁ e₂ e₃ e₄).spelling)

/-- The two code points that stand for the units of one above `FFFF`. -/
def halves (c : CodePoint) : Text := c.units.map CodePoint.ofNat

theorem exists_halves (hc : 0xFFFF < c.val) : ∃ h l : CodePoint, c.units = [h.val, l.val]
    ∧ halves c = [h, l] ∧ h.isHighSurrogate = true ∧ l.isLowSurrogate = true := by
  have hlt := c.isLt
  have hunits : c.units
      = [0xD800 + (c.val - 0x10000) / 0x400, 0xDC00 + (c.val - 0x10000) % 0x400] := by
    unfold CodePoint.units
    rw [if_neg (by omega)]
  have hh : (CodePoint.ofNat (0xD800 + (c.val - 0x10000) / 0x400)).val
      = 0xD800 + (c.val - 0x10000) / 0x400 := CodePoint.val_ofNat (by omega)
  have hl : (CodePoint.ofNat (0xDC00 + (c.val - 0x10000) % 0x400)).val
      = 0xDC00 + (c.val - 0x10000) % 0x400 := CodePoint.val_ofNat (by omega)
  refine ⟨CodePoint.ofNat (0xD800 + (c.val - 0x10000) / 0x400),
    CodePoint.ofNat (0xDC00 + (c.val - 0x10000) % 0x400), by rw [hunits, hh, hl], ?_, ?_, ?_⟩
  · rw [halves, hunits, List.map_cons, List.map_cons, List.map_nil]
  · rw [CodePoint.isHighSurrogate_iff, hh]
    omega
  · rw [CodePoint.isLowSurrogate_iff, hl]
    omega

theorem unescape_append (hbefore : backslash ∉ before) (t : Text) :
    unescape (before ++ t) = before ++ unescape t := by
  induction before with
  | nil => rfl
  | cons c before ih =>
    obtain ⟨hc, hrest⟩ := not_or.1 (mt List.mem_cons.2 hbefore)
    rw [List.cons_append, unescape_cons (Ne.symm hc), ih hrest, List.cons_append]

/-- A text without a backslash stands for itself. -/
theorem unescape_plain (h : backslash ∉ after) : unescape after = after := by
  have happend := unescape_append h []
  rwa [List.append_nil, show unescape [] = [] from rfl, List.append_nil] at happend

theorem unescape_whole (hc : 0xFFFF < c.val) (h : SpellsWhole c raw) (t : Text) :
    unescape (raw ++ t) = c :: unescape t := by
  cases h with
  | raw =>
    have hne : c ≠ backslash := by
      rintro rfl
      exact absurd hc (by decide)
    exact unescape_cons hne t
  | braced ds hnumber =>
    cases ds with
    | nil =>
      rw [← hnumber] at hc
      exact absurd hc (by decide)
    | cons d ds =>
      have hle : HexDigit.number (d :: ds) ≤ 0x10FFFF := by
        rw [hnumber]
        exact Nat.le_of_lt_succ c.isLt
      have hpiece : unescape (Piece.inBraces (d :: ds) ++ t)
          = [CodePoint.ofNat (HexDigit.number (d :: ds))] ++ unescape t :=
        unescape_piece (.braced d ds hle) nofun
      rwa [hnumber, CodePoint.ofNat_val] at hpiece

theorem unescape_units (h : SpellsUnits c raw) (t : Text) :
    unescape (raw ++ t) = halves c ++ unescape t := by
  cases h with
  | units d₁ d₂ d₃ d₄ e₁ e₂ e₃ e₄ hunits =>
    have hunit : ∀ (a b c d : HexDigit) (t : Text), unescape ((Piece.unit a b c d).spelling ++ t)
        = (Piece.unit a b c d).value ++ unescape t :=
      fun a b c d t => unescape_piece (.unit a b c d) nofun
    rw [List.append_assoc, hunit, hunit, halves, hunits]
    rfl

/-! ## Every code point of two units has these spellings -/

theorem exists_four_digits {n : Nat} (hn : n < 0x10000) :
    ∃ d₁ d₂ d₃ d₄ : HexDigit, HexDigit.number [d₁, d₂, d₃, d₄] = n := by
  let digit (k : Nat) : HexDigit := ⟨⟨k % 16, Nat.mod_lt k (by decide)⟩, false⟩
  refine ⟨digit (n / 4096), digit (n / 256), digit (n / 16), digit n, ?_⟩
  rw [HexDigit.number_eq_foldl]
  simp only [List.foldl_cons, List.foldl_nil, digit]
  omega

theorem exists_spellsUnits (hc : 0xFFFF < c.val) : ∃ raw, SpellsUnits c raw := by
  obtain ⟨h, l, hunits, -, hhigh, hlow⟩ := exists_halves hc
  rw [CodePoint.isHighSurrogate_iff] at hhigh
  rw [CodePoint.isLowSurrogate_iff] at hlow
  obtain ⟨d₁, d₂, d₃, d₄, hd⟩ := exists_four_digits (n := h.val) (by omega)
  obtain ⟨e₁, e₂, e₃, e₄, he⟩ := exists_four_digits (n := l.val) (by omega)
  exact ⟨_, .units d₁ d₂ d₃ d₄ e₁ e₂ e₃ e₄ (by rw [hunits, hd, he])⟩

/-! ## What is read -/

/-- The halves have the units of the code point. -/
theorem units_halves (hc : 0xFFFF < c.val) : (halves c).units = c.units := by
  obtain ⟨h, l, hunits, hhalves, hhigh, hlow⟩ := exists_halves hc
  rw [CodePoint.isHighSurrogate_iff] at hhigh
  rw [CodePoint.isLowSurrogate_iff] at hlow
  have hone : ∀ x : CodePoint, x.val < 0x10000 → x.units = [x.val] := by
    intro x hx
    unfold CodePoint.units
    rw [if_pos hx]
  rw [hhalves, hunits, show [h, l] = [h] ++ [l] from rfl, Text.units_append, Text.units_singleton,
    Text.units_singleton, hone h (by omega), hone l (by omega)]
  rfl

/-- A specifier with the halves of a code point leads to no file on a disk, whatever the directory
and the suffixes that are tried, if no two dots come later that cancel the name. -/
theorem find?_halves (hc : 0xFFFF < c.val)
    (hafter : [Path.dot, Path.dot] ∉ (after.splitOn Path.slash).tail)
    (d : Disk) (limit : Option Int) (v : Variant) (directory : Text) :
    Candidate.find? (d.reader limit) v
      (Candidate.ofSpecifier directory (before ++ halves c ++ after)) = none := by
  -- the second half is the code point that stays, for what is behind it is known
  obtain ⟨h, l, -, hhalves, -, hlow⟩ := exists_halves hc
  have hl := CodePoint.isLowSurrogate_iff.1 hlow
  have hslash : l ≠ Path.slash := by
    rintro rfl
    exact absurd hl (by decide)
  have hdot : l ≠ Path.dot := by
    rintro rfl
    exact absurd hl (by decide)
  have hsurrogate : l.isSurrogate = true := by
    rw [← Bool.not_eq_false, CodePoint.isSurrogate_eq_false_iff]
    omega
  have hspecifier : before ++ halves c ++ after = (before ++ [h]) ++ l :: after := by
    rw [hhalves, List.append_assoc, List.append_assoc]
    rfl
  rw [hspecifier]
  exact Candidate.find?_of_mem_surrogate hsurrogate
    (Candidate.mem_ofSpecifier hslash hdot hafter directory) d limit v

/-- **Two units.** Let a code point above `FFFF` stand in a literal without other escapes. Written
as itself or by its number in braces it is read as itself, so that the specifier, and with it the
candidate and the file, do not depend on which of these spellings is used. Written by the numbers of
its units it is read as two surrogates: the text has the same units but is another one, and no disk
has a file that it leads to. -/
theorem unescape_twoUnits (hc : 0xFFFF < c.val) (hbefore : backslash ∉ before)
    (hafter : backslash ∉ after) :
    (∀ raw, SpellsWhole c raw → unescape (before ++ raw ++ after) = before ++ [c] ++ after)
      ∧ (∀ raw, SpellsWhole c raw → ∀ (literal : SyntaxNode) (specifier : Text),
        literal.Quotes (before ++ raw ++ after) → literal.argumentSpecifier? = some specifier →
        ∀ (r : Reader) (v : Variant) (directory : Text),
          Candidate.find? r v (Candidate.ofSpecifier directory specifier)
            = Candidate.find? r v (Candidate.ofSpecifier directory (before ++ [c] ++ after)))
      ∧ (∃ raw, SpellsUnits c raw)
      ∧ (∀ raw, SpellsUnits c raw →
        unescape (before ++ raw ++ after) = before ++ halves c ++ after
          ∧ unescape (before ++ raw ++ after) ≠ before ++ [c] ++ after
          ∧ (unescape (before ++ raw ++ after)).units = (before ++ [c] ++ after).units)
      ∧ (∀ raw, SpellsUnits c raw → ∀ (literal : SyntaxNode) (specifier : Text),
        literal.Quotes (before ++ raw ++ after) → literal.argumentSpecifier? = some specifier →
        [Path.dot, Path.dot] ∉ (after.splitOn Path.slash).tail →
        ∀ (d : Disk) (limit : Option Int) (v : Variant) (directory : Text),
          Candidate.find? (d.reader limit) v (Candidate.ofSpecifier directory specifier) = none) := by
  have hwhole : ∀ raw, SpellsWhole c raw →
      unescape (before ++ raw ++ after) = before ++ [c] ++ after := by
    intro raw hraw
    rw [List.append_assoc, unescape_append hbefore, unescape_whole hc hraw, unescape_plain hafter,
      List.append_assoc]
    rfl
  have hunits : ∀ raw, SpellsUnits c raw →
      unescape (before ++ raw ++ after) = before ++ halves c ++ after := by
    intro raw hraw
    rw [List.append_assoc, unescape_append hbefore, unescape_units hraw, unescape_plain hafter,
      List.append_assoc]
  refine ⟨hwhole, ?_, exists_spellsUnits hc, ?_, ?_⟩
  · intro raw hraw literal specifier hquotes hspecifier r v directory
    rw [hquotes.specifier_eq hspecifier, hwhole raw hraw]
  · intro raw hraw
    refine ⟨hunits raw hraw, ?_, ?_⟩
    · -- the two texts differ in length
      obtain ⟨h, l, -, hhalves, -, -⟩ := exists_halves hc
      intro heq
      rw [hunits raw hraw, hhalves] at heq
      have hlength := congrArg List.length heq
      simp only [List.length_append, List.length_cons, List.length_nil] at hlength
      omega
    · rw [hunits raw hraw, Text.units_append, Text.units_append, units_halves hc,
        Text.units_append, Text.units_append, Text.units_singleton]
  · intro raw hraw literal specifier hquotes hspecifier hdots d limit v directory
    rw [hquotes.specifier_eq hspecifier, hunits raw hraw]
    exact find?_halves hc hdots d limit v directory

theorem spellsUnits_face :
    SpellsUnits (CodePoint.ofNat 0x1F600) (Text.ofString "\\ud83d\\ude00") :=
  .units ⟨13, false⟩ ⟨8, false⟩ ⟨3, false⟩ ⟨13, false⟩ ⟨13, false⟩ ⟨14, false⟩ ⟨0, false⟩ ⟨0, false⟩
    (by decide)

/-- A string with a face, by the numbers of its units. -/
def faceLiteral : SyntaxNode :=
  SyntaxNode.named "string" "'./a\\ud83d\\ude00.js'" (some "source") []

theorem face_twoUnits :
    0xFFFF < (CodePoint.ofNat 0x1F600).val
      ∧ backslash ∉ Text.ofString "./a" ∧ backslash ∉ Text.ofString ".js"
      ∧ unescape (Text.ofString "./a\\u\x7b1F600\x7d.js") = Text.ofString "./a😀.js"
      ∧ ∃ specifier, faceLiteral.argumentSpecifier? = some specifier
        ∧ specifier = Text.ofString "./a" ++ [0xD83D, 0xDE00] ++ Text.ofString ".js"
        ∧ ∀ d : Disk, Candidate.find? (d.reader none) .javascript
          (Candidate.ofSpecifier (Text.ofString "lib") specifier) = none := by
  have hc : 0xFFFF < (CodePoint.ofNat 0x1F600).val := by decide
  have hbefore : backslash ∉ Text.ofString "./a" := by decide
  have hafter : backslash ∉ Text.ofString ".js" := by decide
  have hquotes : faceLiteral.Quotes
      (Text.ofString "./a" ++ Text.ofString "\\ud83d\\ude00" ++ Text.ofString ".js") :=
    ⟨'\'', '\'', by decide⟩
  obtain ⟨hwhole, -, -, hunits, hmissing⟩ := unescape_twoUnits hc hbefore hafter
  refine ⟨hc, hbefore, hafter, ?_, faceLiteral.stringValue, rfl, ?_, ?_⟩
  · exact hwhole _ (.braced [⟨1, false⟩, ⟨15, true⟩, ⟨6, false⟩, ⟨0, false⟩, ⟨0, false⟩] (by decide))
  · rw [hquotes.stringValue, (hunits _ spellsUnits_face).1]
    decide
  · intro d
    exact hmissing _ spellsUnits_face faceLiteral _ hquotes rfl (by decide) d none .javascript _

/-- Joining the halves of a pair is no part of reading: the spellings of the face differ. -/
theorem face_spellings_differ :
    ¬∀ (c : CodePoint) (before after raw raw' : Text), 0xFFFF < c.val → backslash ∉ before →
      backslash ∉ after → SpellsWhole c raw → SpellsUnits c raw' →
      unescape (before ++ raw ++ after) = unescape (before ++ raw' ++ after) := by
  intro hall
  have heq := hall (CodePoint.ofNat 0x1F600) [] [] [CodePoint.ofNat 0x1F600]
    (Text.ofString "\\ud83d\\ude00") (by decide) (by decide) (by decide) .raw
    spellsUnits_face
  exact absurd heq (by decide)

end Literal

end ImportClosure
